import CodeSurvey.Proofs.Bounds
import Mathlib.Algebra.Order.BigOperators.Group.List

namespace CodeSurvey

namespace Json

variable {j : Json}

/-- All numbers are whole. -/
inductive WithoutDoubles : Json → Prop where
  | null : WithoutDoubles .null
  | bool (b : Bool) : WithoutDoubles (.bool b)
  | integer (n : Int) : WithoutDoubles (.number (.integer n))
  | string (s : String) : WithoutDoubles (.string s)
  | array {items : List Json} (h : ∀ j ∈ items, WithoutDoubles j) : WithoutDoubles (.array items)
  | object {members : List (String × Json)} (h : ∀ e ∈ members, WithoutDoubles e.2) :
    WithoutDoubles (.object members)

/-- Objects have their members in the order of the keys. -/
inductive Ordered : Json → Prop where
  | null : Ordered .null
  | bool (b : Bool) : Ordered (.bool b)
  | number (n : JsonNumber) : Ordered (.number n)
  | string (s : String) : Ordered (.string s)
  | array {items : List Json} (h : ∀ j ∈ items, Ordered j) : Ordered (.array items)
  | object {members : List (String × Json)} (sorted : members.Pairwise (·.1 < ·.1))
    (h : ∀ e ∈ members, Ordered e.2) : Ordered (.object members)

theorem Ordered.of_ofText? {text : String} (h : ofText? text = some j) : j.Ordered := by
  obtain ⟨w, hw, h⟩ := Option.bind_eq_some_iff.mp h
  obtain ⟨-, h⟩ := Option.ite_none_right_eq_some.mp h
  exact (WrittenJson.Lawful.of_ofText? hw).value?_induction h .null .bool (fun _ => .number _) .string
    .array .object

theorem Lawful.reread_byKey (h : j.Lawful) (ordered : j.Ordered) (whole : j.WithoutDoubles) :
    j.reread .byKey = j := by
  induction h with
  | null | bool | string => rfl
  | number h =>
    cases whole
    rw [reread, JsonNumber.reread_integer h]
  | @array items h ih =>
    cases ordered with
    | array ordered =>
    cases whole with
    | array whole =>
    have same : rereadItems .byKey items = items := by
      rw [rereadItems_eq_map]
      exact (List.map_congr_left (g := id) fun j hj => ih j hj (ordered j hj) (whole j hj)).trans
        (List.map_id _)
    rw [reread, same]
  | @object members h ih =>
    cases ordered with
    | object sorted ordered =>
    cases whole with
    | object whole =>
    have same : rereadMembers .byKey members = members := by
      rw [rereadMembers_eq_map]
      refine (List.map_congr_left (g := id) fun e he => ?_).trans (List.map_id _)
      exact Prod.ext rfl (ih e he (ordered e he) (whole e he))
    rw [reread, same, Arrangement.byKey_of_sorted sorted]

end Json

namespace JsonPrinter

theorem length_quote (s : String) : s.length + 2 ≤ (quote s).length := by
  have escaped (c : Char) : 1 ≤ (escape c).length := by
    unfold escape
    split
    case h_8 => split <;> simp
    all_goals simp
  have longer (cs : List Char) : cs.length ≤ (cs.flatMap escape).length := by
    induction cs with
    | nil => exact Nat.le_refl _
    | cons c cs ih =>
      have first := escaped c
      rw [List.flatMap_cons, List.length_append, List.length_cons]
      omega
  have inside := longer s.toList
  rw [← String.length_toList, ← String.length_toList, JsonReader.toList_quote, List.length_cons,
    List.length_append, List.length_singleton]
  omega

end JsonPrinter

namespace SortedMap

variable {α β : Type}

theorem entries_filterMap_some (f : α → β) (m : SortedMap α) :
    (m.filterMap fun _ a => some (f a)).entries = m.entries.map fun (key, a) => (key, f a) := by
  simp [filterMap]

end SortedMap

namespace Project

namespace ConfigEntry

variable {entry : ConfigEntry}

/-- An entry as it is decoded again: always a value. -/
def settled : ConfigEntry → ConfigEntry
  | json value => json value
  | raw text => json (.string text)

theorem settled_eq (entry : ConfigEntry) : entry.settled = json entry.toJson := by
  cases entry <;> rfl

theorem decodes_settled (lawful : entry.toJson.Lawful)
    (same : entry.toJson.reread .byKey = entry.toJson)
    (depth : entry.toJson.depth + 2 ≤ Json.maxDepth) :
    Decodes .asWritten (decode? 2) entry.settled.toJson entry.settled := by
  have shallow : (entry.toJson.reread .asWritten).written.depth + 2 ≤ Json.maxDepth := by
    rwa [← lawful.depth_reread] at depth
  rw [settled_eq, Decodes, toJson, decode?, if_pos shallow, lawful.value?_reread, same]
  rfl

theorem reread_ofText {content : String}
    (whole : ∀ value, ofText content = json value → value.WithoutDoubles) :
    (ofText content).toJson.reread .byKey = (ofText content).toJson := by
  cases h : Json.ofText? content with
  | none =>
    have raw : ofText content = .raw content := by rw [ofText, h]
    rw [raw, toJson, Json.reread]
  | some value =>
    have read : ofText content = json value := by rw [ofText, h]
    rw [read]
    exact (Json.Lawful.of_ofText? h).reread_byKey (.of_ofText? h) (whole value read)

end ConfigEntry

namespace Structure

variable {s : Structure} {files : SortedMap String}

def ofText? (text : String) : Option Structure := (WrittenJson.ofText? text).bind decode?

def settled (s : Structure) : Structure :=
  { s with configs := s.configs.filterMap fun _ entry => some entry.settled }

theorem json_settled (s : Structure) : s.settled.json = s.json := by
  have configs : Json.ofMap (·.toJson) s.settled.configs = Json.ofMap (·.toJson) s.configs := by
    rw [Json.ofMap, Json.ofMap, settled, SortedMap.entries_filterMap_some, List.map_map]
    refine congrArg _ (List.map_congr_left fun e _ => ?_)
    dsimp only [Function.comp_apply]
    rw [ConfigEntry.settled_eq, ConfigEntry.toJson]
  rw [json, json, configs]
  rfl

theorem decodes_settled
    (h : ∀ path entry, s.configs.get? path = some entry →
      Decodes .asWritten (ConfigEntry.decode? 2) entry.settled.toJson entry.settled) :
    Decodes .asWritten decode? s.json s.settled := by
  have fields := Decodes.record .asWritten
    [("tree", .string s.tree), ("key_files", .ofMap .string s.keyFiles),
      ("abstract_files", .ofMap .string s.digests),
      ("configs", .ofMap (·.toJson) s.settled.configs)] (by simp)
  have keyFiles := Decodes.map .asWritten (m := s.keyFiles) fun _ text _ => Decodes.text _ text
  have digests := Decodes.map .asWritten (m := s.digests) fun _ text _ => Decodes.text _ text
  have configs : Decodes .asWritten (WrittenJson.map? (ConfigEntry.decode? 2))
      (.ofMap (·.toJson) s.settled.configs) s.settled.configs := by
    refine Decodes.map .asWritten fun path entry found => ?_
    rw [settled, SortedMap.get?_filterMap, Option.bind_eq_some_iff] at found
    obtain ⟨before, found, eq⟩ := found
    exact Option.some.inj eq ▸ h path before found
  have tree := Decodes.text .asWritten s.tree
  simp only [List.map_cons, List.map_nil] at fields
  rw [Decodes] at tree keyFiles digests configs
  rw [← json_settled]
  simp only [Decodes, decode?, json, settled] at fields configs ⊢
  simp only [fields, tree, keyFiles, digests, configs, Option.bind_eq_bind, Option.bind_some]

end Structure

namespace Document

variable {s : Structure}

theorem exists_length_entry (path body : String) : ∃ n ≤ 1, (entry path body).length =
    ("=== " ++ path ++ " ===\n").length + body.length + n + 1 := by
  have one : "\n".length = 1 := rfl
  rw [entry]
  split
  next => exact ⟨0, by omega, by rw [String.append_empty, String.length_append, String.length_append, one]⟩
  next => exact ⟨1, by omega, by
    rw [String.length_append, String.length_append, String.length_append, one]⟩

theorem length_entry_lt (path : String) {body other : String} (h : body.length + 1 < other.length) :
    (entry path body).length < (entry path other).length := by
  obtain ⟨n, hn, length⟩ := exists_length_entry path body
  obtain ⟨m, -, length'⟩ := exists_length_entry path other
  omega

theorem length_entries {α : Type} (body : α → String) (m : SortedMap α) :
    (entries body m).length = (m.entries.map fun e => (entry e.1 (body e.2)).length).sum := by
  rw [entries, String.length_join, List.map_map]
  rfl

theorem length_entries_settled_lt {path text : String}
    (raw : s.configs.get? path = some (.raw text)) :
    (entries (·.display) s.configs).length < (entries (·.display) s.settled.configs).length := by
  have longer : ∀ e : String × ConfigEntry, ∀ t, e.2 = .raw t →
      (entry e.1 e.2.display).length < (entry e.1 e.2.settled.display).length := by
    rintro ⟨path, entry⟩ t rfl
    refine length_entry_lt path ?_
    have quoted := JsonPrinter.length_quote t
    change t.length + 1 < (JsonPrinter.quote t).length
    omega
  rw [length_entries, length_entries, Structure.settled, SortedMap.entries_filterMap_some, List.map_map]
  refine List.sum_lt_sum _ _ (fun e _ => ?_) ⟨(path, .raw text), SortedMap.get?_eq_some_iff.mp raw, ?_⟩
  · cases h : e.2 with
    | json value =>
      dsimp only [Function.comp_apply]
      rw [h]
      exact Nat.le_refl _
    | raw t =>
      have lt := longer e t h
      dsimp only [Function.comp_apply]
      rw [h] at lt ⊢
      exact Nat.le_of_lt lt
  · exact longer (path, .raw text) text rfl

theorem settled_of_values (h : ∀ path text, s.configs.get? path ≠ some (.raw text)) :
    s.settled = s := by
  have same : s.settled.configs = s.configs := by
    apply SortedMap.eq_of_entries
    rw [Structure.settled, SortedMap.entries_filterMap_some]
    refine (List.map_congr_left fun e he => ?_).trans (List.map_id _)
    obtain ⟨path, entry⟩ := e
    cases entry with
    | json value => rfl
    | raw text => exact absurd (SortedMap.get?_eq_some_iff.mpr he) (h path text)
  cases s
  exact congrArg (Structure.mk _ _ _) same

theorem exists_sections (s : Structure) : ∃ start, ∀ configs,
    sections { s with configs } = start ++ entries (·.display) configs :=
  ⟨"项目结构:\n" ++ s.tree ++ "\n关键文件:\n" ++ entries id s.keyFiles ++ "文件摘要:\n" ++
    entries id s.digests ++ "配置文件:\n", fun _ => rfl⟩

theorem text_settled_iff (s : Structure) (report : String) :
    text s.settled report = text s report ↔
      ∀ path text, s.configs.get? path ≠ some (.raw text) := by
  constructor
  · intro same path t raw
    obtain ⟨start, eq⟩ := exists_sections s
    have after : sections s.settled = start ++ entries (·.display) s.settled.configs := eq _
    have before : sections s = start ++ entries (·.display) s.configs := eq s.configs
    rw [text, text, after, before] at same
    have length := congrArg String.length same
    have lt := length_entries_settled_lt raw
    simp only [String.length_append] at length
    omega
  · intro values
    rw [settled_of_values values]

end Document

variable {files : SortedMap String}

/-- A structure is decoded from its own text as it was, but with values in place of raw texts; and its
document stays the same exactly if there are none of these. -/
theorem structure_survives_text
    (whole : ∀ path value, (Structure.ofFiles files).configs.get? path = some (.json value) →
      value.WithoutDoubles)
    (depth : (Structure.ofFiles files).json.depth ≤ Json.maxDepth) :
    Structure.ofText? (Structure.ofFiles files).json.compact = some (Structure.ofFiles files).settled ∧
      Structure.ofText? (Structure.ofFiles files).json.pretty =
        some (Structure.ofFiles files).settled ∧
      ∀ report, Document.text (Structure.ofFiles files).settled report =
          Document.text (Structure.ofFiles files) report ↔
        ∀ path text, (Structure.ofFiles files).configs.get? path ≠ some (.raw text) := by
  have decoded : Decodes .asWritten Structure.decode? (Structure.ofFiles files).json
      (Structure.ofFiles files).settled := by
    refine Structure.decodes_settled fun path entry found => ?_
    obtain ⟨-, content, -, rfl⟩ := configs_get?_ofFiles.mp found
    have below := (Structure.depth_le_iff _).mp (show _ ≤ 125 + 2 from depth) path _ found
    refine ConfigEntry.decodes_settled (ConfigEntry.lawful_ofText content) ?_
      (Nat.add_le_add_right below 2)
    exact ConfigEntry.reread_ofText fun value eq => whole path value (eq ▸ found)
  obtain ⟨compact, pretty⟩ := decoded.texts (Structure.lawful_ofFiles files)
  exact ⟨compact, pretty, Document.text_settled_iff _⟩

def settledValue : Json :=
  .object [("a", .null), ("b", .array [.number (.integer 1), .number (.integer (-2))])]

theorem settledValue_whole : settledValue.WithoutDoubles := by
  refine .object (List.forall_mem_cons.mpr ⟨.null, List.forall_mem_singleton.mpr (.array ?_)⟩)
  exact List.forall_mem_cons.mpr ⟨.integer 1, List.forall_mem_singleton.mpr (.integer (-2))⟩

def settledFiles : SortedMap String :=
  .ofList [("README.md", "Notes"), ("a.json", settledValue.compact), ("b.json", "un\nread \"text\"")]

theorem ofText_settledValue : ConfigEntry.ofText settledValue.compact = .json settledValue := by
  have lawful : settledValue.Lawful := by
    refine .object (List.forall_mem_cons.mpr ⟨.null, List.forall_mem_singleton.mpr (.array ?_)⟩)
    exact List.forall_mem_cons.mpr ⟨.number (by decide : -2 ^ 63 ≤ (1 : Int) ∧ (1 : Int) < 2 ^ 64),
      List.forall_mem_singleton.mpr (.number (by decide : -2 ^ 63 ≤ (-2 : Int) ∧ (-2 : Int) < 2 ^ 64))⟩
  have ordered : settledValue.Ordered := by
    refine .object (by decide) (List.forall_mem_cons.mpr ⟨.null, List.forall_mem_singleton.mpr ?_⟩)
    exact .array (List.forall_mem_cons.mpr ⟨.number _, List.forall_mem_singleton.mpr (.number _)⟩)
  have read := lawful.ofText?_of_written lawful.ofText?_compact
  rw [if_pos (by decide), lawful.reread_byKey ordered settledValue_whole] at read
  rw [ConfigEntry.ofText, read]

theorem configs_settledFiles {path : String} {entry : ConfigEntry} :
    (Structure.ofFiles settledFiles).configs.get? path = some entry ↔
      path = "a.json" ∧ entry = .json settledValue ∨
        path = "b.json" ∧ entry = .raw "un\nread \"text\"" := by
  have unread : ConfigEntry.ofText "un\nread \"text\"" = .raw "un\nread \"text\"" := by
    have none : (Json.ofText? "un\nread \"text\"").isNone = true := by decide +kernel
    rw [ConfigEntry.ofText, Option.isNone_iff_eq_none.mp none]
  have entries : settledFiles.entries = [("README.md", "Notes"), ("a.json", settledValue.compact),
      ("b.json", "un\nread \"text\"")] := SortedMap.entries_ofList (by decide)
  have categories : Paths.classify "a.json" = .config ∧ Paths.classify "b.json" = .config := by decide
  rw [configs_get?_ofFiles]
  simp only [SortedMap.get?_eq_some_iff, entries, List.mem_cons, List.not_mem_nil, or_false,
    Prod.mk.injEq]
  constructor
  · rintro ⟨config, content, ⟨rfl, rfl⟩ | ⟨rfl, rfl⟩ | ⟨rfl, rfl⟩, rfl⟩
    · exact absurd config (by decide)
    · exact .inl ⟨rfl, ofText_settledValue⟩
    · exact .inr ⟨rfl, unread⟩
  · rintro (⟨rfl, rfl⟩ | ⟨rfl, rfl⟩)
    · exact ⟨categories.1, _, .inr (.inl ⟨rfl, rfl⟩), ofText_settledValue⟩
    · exact ⟨categories.2, _, .inr (.inr ⟨rfl, rfl⟩), unread⟩

theorem structure_survives_text_raw :
    (∀ path value, (Structure.ofFiles settledFiles).configs.get? path = some (.json value) →
        value.WithoutDoubles) ∧
      (Structure.ofFiles settledFiles).json.depth ≤ Json.maxDepth ∧
      (Structure.ofFiles settledFiles).configs.get? "b.json" = some (.raw "un\nread \"text\"") ∧
      Structure.ofText? (Structure.ofFiles settledFiles).json.compact =
        some (Structure.ofFiles settledFiles).settled ∧
      Document.text (Structure.ofFiles settledFiles).settled "" ≠
        Document.text (Structure.ofFiles settledFiles) "" := by
  have whole : ∀ path value, (Structure.ofFiles settledFiles).configs.get? path = some (.json value) →
      value.WithoutDoubles := by
    intro path value found
    rcases configs_settledFiles.mp found with ⟨-, eq⟩ | ⟨-, eq⟩
    · cases eq
      exact settledValue_whole
    · cases eq
  have depth : (Structure.ofFiles settledFiles).json.depth ≤ Json.maxDepth := by
    refine (Structure.depth_le_iff _ (n := 125)).mpr fun path entry found => ?_
    rcases configs_settledFiles.mp found with ⟨-, rfl⟩ | ⟨-, rfl⟩
    · decide
    · exact Nat.zero_le _
  have raw := configs_settledFiles.mpr (.inr ⟨rfl, rfl⟩)
  obtain ⟨compact, -, document⟩ := structure_survives_text whole depth
  exact ⟨whole, depth, raw, compact, fun same => (document "").mp same _ _ raw⟩

end Project

end CodeSurvey
