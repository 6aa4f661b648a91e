import CodeSurvey.Project.Survey
import CodeSurvey.Proofs.ImportIndex
import CodeSurvey.Proofs.JsonTexts

namespace CodeSurvey

open WrittenJson

variable {α : Type} (arrangement : Arrangement) {j : Json} {a : α}
  {decode : WrittenJson → Option α}

/-- The number that the text of a double is read as. -/
def Binary64.reread (x : Binary64) : Binary64 :=
  match (JsonNumber.double x).reread with
  | .double y => y
  | .integer _ => x

/-- What a value decodes to once it was written and read. -/
def Decodes (decode : WrittenJson → Option α) (j : Json) (a : α) : Prop :=
  decode (j.reread arrangement).written = some a

namespace Decodes

theorem text (s : String) : Decodes arrangement text? (.string s) s := rfl

theorem nat {n bound : Nat} (h : n < bound) (hb : bound ≤ 2 ^ 64) :
    Decodes arrangement (natBelow? bound) (.ofNat n) n := by
  have lawful : (JsonNumber.integer n).Lawful := ⟨by omega, by omega⟩
  simp [Decodes, Json.ofNat, Json.reread, Json.written, JsonNumber.reread_integer lawful, natBelow?, h]

theorem double {x : Binary64} (h : x.Finite) :
    Decodes arrangement binary64? (.number (.double x)) x.reread := by
  obtain ⟨y, hy⟩ := JsonNumber.reread_double h
  simp [Decodes, Json.reread, Json.written, Binary64.reread, hy, binary64?]

theorem texts (decoded : Decodes .asWritten decode j a) (lawful : j.Lawful) :
    (ofText? j.compact).bind decode = some a ∧ (ofText? j.pretty).bind decode = some a := by
  rw [lawful.ofText?_compact, lawful.ofText?_pretty]
  exact ⟨decoded, decoded⟩

theorem mapM_eq_some {β γ : Type} {f : β → Option γ} {g : β → γ} {bs : List β}
    (h : ∀ b ∈ bs, f b = some (g b)) : bs.mapM f = some (bs.map g) := by
  induction bs with
  | nil => rfl
  | cons b rest ih =>
    rw [List.mapM_cons, h b List.mem_cons_self, ih fun c hc => h c (List.mem_cons_of_mem _ hc)]
    rfl

theorem list {f : α → Json} {as : List α} (h : ∀ a ∈ as, Decodes arrangement decode (f a) a) :
    Decodes arrangement (list? decode) (.array (as.map f)) as := by
  rw [Decodes, Json.reread, Json.rereadItems_eq_map, Json.written, Json.writtenItems_eq_map, list?,
    List.mapM_map, List.mapM_map, List.mapM_map]
  exact (mapM_eq_some (g := id) h).trans (by rw [List.map_id])

theorem strings (names : List String) : Decodes arrangement (list? text?) (.ofStrings names) names :=
  list arrangement fun s _ => text arrangement s

theorem written_object (members : List (String × Json)) :
    ((Json.object members).reread arrangement).written =
      .object ((arrangement.arrange members).map fun (key, j) =>
        (some key, (j.reread arrangement).written)) := by
  rw [Json.reread, Json.rereadMembers_eq_map, arrangement.map, Json.written,
    Json.writtenMembers_eq_map, List.map_map]
  rfl

theorem entries {f : α → Json} {entries : List (String × α)}
    (distinct : (entries.map (·.1)).Nodup)
    (h : ∀ e ∈ entries, Decodes arrangement decode (f e.2) e.2) :
    Decodes arrangement (entries? decode) (.object (entries.map fun (key, a) => (key, f a)))
      (arrangement.arrange entries) := by
  rw [Decodes, written_object, arrangement.map, List.map_map, entries?, List.mapM_map]
  refine (mapM_eq_some (g := id) fun e he => ?_).trans (by rw [List.map_id])
  have value := h e ((arrangement.perm distinct).mem_iff.mp he)
  simp only [Decodes] at value
  simp [value]

theorem map {f : α → Json} {m : SortedMap α}
    (h : ∀ key a, m.get? key = some a → Decodes arrangement decode (f a) a) :
    Decodes arrangement (map? decode) (.ofMap f m) m := by
  have found := entries arrangement m.keys_nodup fun e he =>
    h e.1 e.2 (SortedMap.get?_eq_some_iff.mpr he)
  rw [Decodes, map?, Json.ofMap, found, Option.map_some, Arrangement.ofList_arrange]

theorem field?_of_mem {fields : List (String × WrittenJson)} {name : String} {w : WrittenJson}
    (distinct : (fields.map (·.1)).Nodup) (h : (name, w) ∈ fields) :
    field? (fields.map fun (key, w) => (some key, w)) name = some w := by
  have only : (fields.map fun (key, w) => (some key, w)).filter (·.1 = some name) =
      [(some name, w)] := by
    induction fields with
    | nil => cases h
    | cons first rest ih =>
      obtain ⟨key, v⟩ := first
      obtain ⟨new, distinct⟩ := List.nodup_cons.mp distinct
      rw [List.map_cons, List.filter_cons]
      rcases List.mem_cons.mp h with eq | h
      · cases eq
        have none : (rest.map fun (key, w) => (some key, w)).filter (·.1 = some name) = [] := by
          rw [List.filter_eq_nil_iff, List.forall_mem_map]
          rintro ⟨key, v⟩ mem eq
          have eq : key = name := by simpa using eq
          exact new (List.mem_map.mpr ⟨(key, v), mem, eq⟩)
        rw [if_pos (decide_eq_true rfl), none]
      · have ne : key ≠ name := fun eq => new (List.mem_map.mpr ⟨(name, w), h, eq.symm⟩)
        rw [if_neg (by simpa using ne), ih distinct h]
  rw [field?, only]

theorem record (fields : List (String × Json)) (distinct : (fields.map (·.1)).Nodup) :
    record? (fields.map (·.1)) ((Json.object fields).reread arrangement).written =
      some (fields.map fun e => (e.2.reread arrangement).written) := by
  have named : (arrangement.arrange fields).map (fun (key, j) =>
      (some key, (j.reread arrangement).written)) =
      ((arrangement.arrange fields).map fun (key, j) => (key, (j.reread arrangement).written)).map
        fun (key, w) => (some key, w) := by
    rw [List.map_map]
    rfl
  have keys : ((arrangement.arrange fields).map fun (key, j) =>
      (key, (j.reread arrangement).written)).map (·.1) = (arrangement.arrange fields).map (·.1) := by
    rw [List.map_map]
    rfl
  rw [written_object, named, record?, if_pos (by simp), List.mapM_map]
  refine mapM_eq_some fun e he => field?_of_mem (keys ▸ Arrangement.arrange_nodup distinct) ?_
  exact List.mem_map.mpr ⟨e, (arrangement.perm distinct).mem_iff.mpr he, rfl⟩

end Decodes

namespace Script

open Decodes

theorem ImportRecord.decodes (i : ImportRecord) : Decodes arrangement decode? i.json i := by
  have fields := record arrangement
    [("specifiers", .string i.specifiers), ("source", .string i.source)] (by simp)
  simp only [List.map_cons, List.map_nil] at fields
  simp only [Decodes, decode?, json, fields, Option.bind_eq_bind, Option.bind_some]
  rfl

structure FunctionRecord.Bounded (f : FunctionRecord) : Prop where
  complexity : f.complexity < countBound
  lines : f.lines < countBound

theorem FunctionRecord.decodes {f : FunctionRecord} (h : f.Bounded) :
    Decodes arrangement decode? f.json f := by
  have fields := record arrangement
    [("name", .string f.name), ("params", .ofStrings f.params), ("complexity", .ofNat f.complexity),
      ("lines", .ofNat f.lines)] (by simp)
  have params := strings arrangement f.params
  have complexity := nat arrangement h.complexity (by decide)
  have lines := nat arrangement h.lines (by decide)
  simp only [List.map_cons, List.map_nil] at fields
  rw [Decodes] at params complexity lines
  simp only [Decodes, decode?, json, fields, params, complexity, lines, Option.bind_eq_bind,
    Option.bind_some]
  rfl

theorem ClassRecord.decodes (c : ClassRecord) : Decodes arrangement decode? c.json c := by
  have fields := record arrangement
    [("name", .string c.name), ("methods", .ofStrings c.methods),
      ("properties", .ofStrings c.properties)] (by simp)
  have methods := strings arrangement c.methods
  have properties := strings arrangement c.properties
  simp only [List.map_cons, List.map_nil] at fields
  rw [Decodes] at methods properties
  simp only [Decodes, decode?, json, fields, methods, properties, Option.bind_eq_bind,
    Option.bind_some]
  rfl

structure FileSurvey.Bounded (s : FileSurvey) : Prop where
  functions : ∀ f ∈ s.functions, f.Bounded
  complexity : s.complexity < countBound

theorem FileSurvey.decodes {s : FileSurvey} (h : s.Bounded) :
    Decodes arrangement decode? s.json s := by
  have fields := record arrangement
    [("imports", .array (s.imports.map (·.json))), ("exports", .ofStrings s.exports),
      ("functions", .array (s.functions.map (·.json))), ("classes", .array (s.classes.map (·.json))),
      ("variables", .ofStrings s.variableNames), ("complexity", .ofNat s.complexity)] (by simp)
  have imports : Decodes arrangement (list? ImportRecord.decode?)
      (.array (s.imports.map (·.json))) s.imports := list arrangement fun i _ => i.decodes arrangement
  have exports := strings arrangement s.exports
  have functions := list arrangement fun f hf => FunctionRecord.decodes arrangement (h.functions f hf)
  have classes : Decodes arrangement (list? ClassRecord.decode?)
      (.array (s.classes.map (·.json))) s.classes := list arrangement fun c _ => c.decodes arrangement
  have variableNames := strings arrangement s.variableNames
  have complexity := nat arrangement h.complexity (by decide)
  simp only [List.map_cons, List.map_nil] at fields
  rw [Decodes] at imports exports functions classes variableNames complexity
  simp only [Decodes, decode?, json, fields, imports, exports, functions, classes, variableNames,
    complexity, Option.bind_eq_bind, Option.bind_some]

end Script

namespace ImportIndex

variable {index : ImportIndex}

/-- No module is there twice, and no file for a module. -/
structure Distinct (index : ImportIndex) : Prop where
  modules : index.modules.Nodup
  paths : ∀ e ∈ index.entries, e.2.Nodup

theorem update_of_new {f : List String → List String} {module : String}
    {entries : List (String × List String)} (new : module ∉ entries.map (·.1)) :
    update f module entries = entries ++ [(module, f [])] := by
  induction entries with
  | nil => rfl
  | cons first rest ih =>
    obtain ⟨m, paths⟩ := first
    rw [List.map_cons, List.mem_cons, not_or] at new
    rw [update, if_neg (Ne.symm new.1), ih new.2, List.cons_append]

theorem Distinct.ofEntries (h : index.Distinct) : ofEntries index.entries = index := by
  obtain ⟨entries⟩ := index
  induction entries using List.reverseRecOn with
  | nil => rfl
  | append_singleton entries last ih =>
    obtain ⟨module, paths⟩ := last
    obtain ⟨before, -, apart⟩ := List.nodup_append.mp
      (show (entries.map (·.1) ++ [module]).Nodup by simpa [ImportIndex.modules] using h.modules)
    have new : module ∉ entries.map (·.1) := fun mem => apart module mem module (by simp) rfl
    have known := ih ⟨before, fun e he => h.paths e (List.mem_append_left _ he)⟩
    have added : addPaths paths [] = paths := by
      have := addPaths_eraseDups paths []
      rwa [List.nil_append, eraseDups_of_nodup (h.paths (module, paths) (by simp))] at this
    have last := entries_recordAll ⟨entries⟩ module paths
    rw [update_of_new new, added] at last
    rw [ofEntries_concat, known]
    cases eq : recordAll ⟨entries⟩ module paths
    rw [eq] at last
    exact congrArg ImportIndex.mk last

theorem mem_update {f : List String → List String} {module : String}
    {entries : List (String × List String)} {e : String × List String}
    (h : e ∈ update f module entries) :
    e ∈ entries ∨ ∃ paths, e = (module, f paths) ∧ (paths = [] ∨ (module, paths) ∈ entries) := by
  induction entries with
  | nil => exact .inr ⟨[], List.mem_singleton.mp h, .inl rfl⟩
  | cons first rest ih =>
    obtain ⟨m, paths⟩ := first
    rw [update] at h
    split at h
    next same =>
      subst same
      rcases List.mem_cons.mp h with eq | mem
      · exact .inr ⟨paths, eq, .inr List.mem_cons_self⟩
      · exact .inl (List.mem_cons_of_mem _ mem)
    next =>
      rcases List.mem_cons.mp h with rfl | mem
      · exact .inl List.mem_cons_self
      · rcases ih mem with mem | ⟨before, eq, none | mem⟩
        · exact .inl (List.mem_cons_of_mem _ mem)
        · exact .inr ⟨before, eq, .inl none⟩
        · exact .inr ⟨before, eq, .inr (List.mem_cons_of_mem _ mem)⟩

theorem Distinct.recordAll (h : index.Distinct) (module : String) (paths : List String) :
    (index.recordAll module paths).Distinct := by
  constructor
  · rw [modules_recordAll]
    split
    next => exact h.modules
    next new =>
      rw [List.contains_iff_mem] at new
      exact h.modules.append (List.nodup_singleton module) (List.disjoint_singleton.mpr new)
  · intro e mem
    rw [entries_recordAll] at mem
    rcases mem_update mem with mem | ⟨before, rfl, known⟩
    · exact h.paths e mem
    · have distinct : before.Nodup := by
        rcases known with rfl | mem
        · exact List.nodup_nil
        · exact h.paths _ mem
      rw [← eraseDups_of_nodup distinct, addPaths_eraseDups]
      exact nodup_eraseDups _

theorem distinct_ofEntries (entries : List (String × List String)) :
    (ImportIndex.ofEntries entries).Distinct := by
  induction entries using List.reverseRecOn with
  | nil => exact ⟨List.nodup_nil, nofun⟩
  | append_singleton entries last ih =>
    rw [ofEntries_concat]
    exact ih.recordAll last.1 last.2

theorem Distinct.arrange (h : index.Distinct) :
    Distinct ⟨arrangement.arrange index.entries⟩ :=
  ⟨Arrangement.arrange_nodup h.modules,
    fun e he => h.paths e ((arrangement.perm h.modules).mem_iff.mp he)⟩

theorem decodes (h : index.Distinct) :
    Decodes arrangement decode? index.json ⟨arrangement.arrange index.entries⟩ := by
  have found := Decodes.entries arrangement h.modules
    fun e _ => Decodes.strings arrangement e.2
  rw [Decodes, decode?, json, found, Option.map_some, (h.arrange arrangement).ofEntries]

end ImportIndex

namespace Project

open Decodes Script

structure Totals.Bounded (t : Totals) : Prop where
  files : t.files < bound
  functions : t.functions < bound
  classes : t.classes < bound
  lines : t.lines < bound
  average : t.averageComplexity.Finite
  dependencies : t.dependencies.Distinct

/-- Totals as they are decoded again. -/
def Totals.reread (arrangement : Arrangement) (t : Totals) : Totals :=
  { t with
    averageComplexity := t.averageComplexity.reread
    dependencies := ⟨arrangement.arrange t.dependencies.entries⟩ }

theorem Totals.decodes {t : Totals} (h : t.Bounded) :
    Decodes arrangement decode? t.json (t.reread arrangement) := by
  have fields := record arrangement
    [("total_files", .ofNat t.files), ("total_functions", .ofNat t.functions),
      ("total_classes", .ofNat t.classes), ("total_lines", .ofNat t.lines),
      ("average_complexity", .number (.double t.averageComplexity)),
      ("dependencies", t.dependencies.json)] (by simp)
  have files := nat arrangement h.files (by decide)
  have functions := nat arrangement h.functions (by decide)
  have classes := nat arrangement h.classes (by decide)
  have lines := nat arrangement h.lines (by decide)
  have average := double arrangement h.average
  have dependencies := ImportIndex.decodes arrangement h.dependencies
  simp only [List.map_cons, List.map_nil] at fields
  rw [Decodes] at files functions classes lines average dependencies
  simp only [Decodes, decode?, json, fields, files, functions, classes, lines, average,
    dependencies, Option.bind_eq_bind, Option.bind_some]
  rfl

structure ProjectSurvey.Bounded (p : ProjectSurvey) : Prop where
  files : ∀ path s, p.files.get? path = some s → s.Bounded
  totals : p.totals.Bounded

@[inherit_doc Totals.reread]
def ProjectSurvey.reread (arrangement : Arrangement) (p : ProjectSurvey) : ProjectSurvey :=
  { p with totals := p.totals.reread arrangement }

theorem ProjectSurvey.decodes {p : ProjectSurvey} (h : p.Bounded) :
    Decodes arrangement decode? p.json (p.reread arrangement) := by
  have fields := record arrangement
    [("files", .ofMap (·.json) p.files), ("summary", p.totals.json)] (by simp)
  have files := map arrangement fun path s hs =>
    FileSurvey.decodes arrangement (h.files path s hs)
  have totals := Totals.decodes arrangement h.totals
  simp only [List.map_cons, List.map_nil] at fields
  rw [Decodes] at files totals
  simp only [Decodes, decode?, json, fields, files, totals, Option.bind_eq_bind, Option.bind_some]
  rfl

end Project

end CodeSurvey
