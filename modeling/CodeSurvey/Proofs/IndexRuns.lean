import CodeSurvey.Proofs.IndexTexts

namespace CodeSurvey.ImportIndex

open WrittenJson

variable {index : ImportIndex} {module path text : String} {notes : List (String × List String)}

section Texts

theorem mapM_eq_some_iff {β γ : Type} {decode : β → Option γ} {encode : γ → β}
    (inverse : ∀ b c, decode b = some c ↔ b = encode c) {bs : List β} {cs : List γ} :
    bs.mapM decode = some cs ↔ bs = cs.map encode := by
  induction bs generalizing cs with
  | nil => cases cs <;> simp
  | cons b bs ih =>
    rw [List.mapM_cons]
    constructor
    · intro h
      obtain ⟨c, first, h⟩ := Option.bind_eq_some_iff.mp h
      obtain ⟨rest, others, h⟩ := Option.bind_eq_some_iff.mp h
      cases Option.some.inj h
      rw [(inverse b c).mp first, ih.mp others, List.map_cons]
    · intro h
      cases cs with
      | nil => cases h
      | cons c cs =>
        obtain ⟨first, others⟩ := List.cons.inj h
        rw [(inverse b c).mpr first, ih.mpr others]
        rfl

def writtenPaths (paths : List String) : WrittenJson :=
  .array (paths.map fun path => .string (some path))

/-- Notes as they stand in a text: modules may be repeated, and so may paths. -/
def writtenNotes (notes : List (String × List String)) : WrittenJson :=
  .object (notes.map fun (module, paths) => (some module, writtenPaths paths))

theorem text?_eq_some_iff (w : WrittenJson) (s : String) :
    w.text? = some s ↔ w = .string (some s) := by
  cases w <;> simp [text?]

theorem paths?_eq_some_iff (w : WrittenJson) (paths : List String) :
    w.list? (·.text?) = some paths ↔ w = writtenPaths paths := by
  cases w with
  | array items => simpa [list?, writtenPaths] using mapM_eq_some_iff text?_eq_some_iff
  | _ => simp [list?, writtenPaths]

theorem notes?_eq_some_iff (w : WrittenJson) :
    w.entries? (·.list? (·.text?)) = some notes ↔ w = writtenNotes notes := by
  have member (m : Option String × WrittenJson) (note : String × List String) :
      (do some (← m.1, ← m.2.list? (·.text?))) = some note ↔
        m = (some note.1, writtenPaths note.2) := by
    obtain ⟨key, value⟩ := m
    obtain ⟨module, paths⟩ := note
    rw [Prod.mk.injEq, ← paths?_eq_some_iff]
    cases key with
    | none => simp
    | some key => cases value.list? (·.text?) <;> simp
  cases w with
  | object members => simpa [entries?, writtenNotes] using mapM_eq_some_iff member
  | _ => simp [entries?, writtenNotes]

theorem ofText?_eq_some_iff : ofText? text = some index ↔
    ∃ notes, WrittenJson.ofText? text = some (writtenNotes notes) ∧ ofEntries notes = index := by
  constructor
  · intro h
    obtain ⟨w, read, h⟩ := Option.bind_eq_some_iff.mp h
    obtain ⟨notes, found, eq⟩ := Option.map_eq_some_iff.mp h
    exact ⟨notes, (notes?_eq_some_iff w).mp found ▸ read, eq⟩
  · rintro ⟨notes, read, rfl⟩
    have found := (notes?_eq_some_iff (writtenNotes notes)).mpr rfl
    rw [ofText?, read, Option.bind_some, decode?, found, Option.map_some]

end Texts

section Growth

theorem addPath_eq (path : String) (paths : List String) :
    ∃ more, addPath path paths = paths ++ more := by
  unfold addPath
  split
  next => exact ⟨[], (List.append_nil _).symm⟩
  next => exact ⟨[path], rfl⟩

theorem getElem?_update {entries : List (String × List String)} {i : Nat} {m : String}
    {paths : List String} (h : entries[i]? = some (m, paths)) :
    ∃ more, (update (addPath path) module entries)[i]? = some (m, paths ++ more) ∧
      (m ≠ module → more = []) := by
  induction entries generalizing i with
  | nil => cases h
  | cons first rest ih =>
    obtain ⟨m', paths'⟩ := first
    rw [update]
    split
    next same =>
      cases i with
      | zero =>
        cases Option.some.inj h
        obtain ⟨more, eq⟩ := addPath_eq path paths
        exact ⟨more, congrArg (fun ps => some (m, ps)) eq, fun ne => absurd same ne⟩
      | succ i => exact ⟨[], by simpa using h, fun _ => rfl⟩
    next =>
      cases i with
      | zero => exact ⟨[], by simpa using h, fun _ => rfl⟩
      | succ i => exact ih h

theorem update_addPath_of_mem {entries : List (String × List String)}
    (h : path ∈ ((entries.find? (·.1 = module)).map (·.2)).getD []) :
    update (addPath path) module entries = entries := by
  induction entries with
  | nil => cases h
  | cons first rest ih =>
    obtain ⟨m, paths⟩ := first
    rw [update]
    split
    next same =>
      have known : path ∈ paths := by simpa [same] using h
      rw [addPath, if_pos (List.contains_iff_mem.mpr known)]
    next other =>
      have later : path ∈ ((rest.find? (·.1 = module)).map (·.2)).getD [] := by
        simpa [other] using h
      rw [ih later]

/-- What a note changes: the paths of its module grow at their end, if they have to, and the module
is added at the end if it is new. -/
structure Grows (index next : ImportIndex) (module path : String) : Prop where
  noted : path ∈ next.pathsOf module
  others : ∀ other, other ≠ module → next.get? other = index.get? other
  places : ∀ (i : Nat) (m : String) (paths : List String), index.entries[i]? = some (m, paths) →
    ∃ more, next.entries[i]? = some (m, paths ++ more) ∧ (m ≠ module → more = [])
  again : path ∈ index.pathsOf module → next = index

theorem mem_addPath (path : String) (paths : List String) : path ∈ addPath path paths := by
  unfold addPath
  split
  next known => exact List.contains_iff_mem.mp known
  next => simp

theorem grows_record (index : ImportIndex) (module path : String) :
    Grows index (index.record module path) module path where
  noted := by
    have found := find?_update (addPath path) module module index.entries
    rw [if_pos rfl] at found
    have eq : (index.record module path).get? module =
        some (addPath path (index.pathsOf module)) := found
    rw [pathsOf_of_get? eq]
    exact mem_addPath path _
  others other ne := by
    have found := find?_update (addPath path) module other index.entries
    rwa [if_neg ne] at found
  places _ _ _ h := getElem?_update h
  again h := congrArg ImportIndex.mk (update_addPath_of_mem h)

end Growth

section Runs

/-- What can be done to an index. -/
inductive Call where
  | record (module path : String)
  | decode (text : String)

def apply (index : ImportIndex) : Call → Option ImportIndex
  | .record module path => some (index.record module path)
  | .decode text => ofText? text

/-- The index after some calls, unless one of the texts is no index. -/
def run (calls : List Call) : Option ImportIndex := calls.foldlM apply {}

/-- What is noted after some calls: what the last text says, and what was noted since. -/
inductive Noted : List Call → List (String × List String) → Prop where
  | start : Noted [] []
  | record {calls : List Call} {notes : List (String × List String)} (before : Noted calls notes)
    (module path : String) : Noted (calls ++ [.record module path]) (notes ++ [(module, [path])])
  | decode {text : String} {notes : List (String × List String)}
    (read : WrittenJson.ofText? text = some (writtenNotes notes)) (calls : List Call) :
    Noted (calls ++ [.decode text]) notes

/-- What an index says of notes: each module stands where it is first mentioned, with the paths
that are given for it, each where it is first given. -/
structure Lists (index : ImportIndex) (notes : List (String × List String)) : Prop where
  modules_distinct : index.modules.Nodup
  paths_distinct : ∀ module paths, index.get? module = some paths → paths.Nodup
  modules : index.modules = (notes.map (·.1)).eraseDups
  paths : ∀ module ∈ notes.map (·.1),
    index.get? module = some ((notes.filter (·.1 = module)).flatMap (·.2)).eraseDups
  unknown : ∀ module ∉ notes.map (·.1), index.get? module = none

theorem lists_ofEntries (notes : List (String × List String)) : (ofEntries notes).Lists notes := by
  have listed (module : String) : module ∈ (ofEntries notes).modules ↔ module ∈ notes.map (·.1) := by
    rw [modules_ofEntries, List.mem_eraseDups]
  have found : ∀ module ∈ notes.map (·.1), (ofEntries notes).get? module =
      some ((notes.filter (·.1 = module)).flatMap (·.2)).eraseDups := by
    intro module mem
    rw [get?_eq_some_pathsOf ((listed module).mpr mem), pathsOf_ofEntries]
  have unknown : ∀ module ∉ notes.map (·.1), (ofEntries notes).get? module = none :=
    fun module new => get?_eq_none (mt (listed module).mp new)
  refine ⟨(distinct_ofEntries notes).modules, ?_, modules_ofEntries notes, found, unknown⟩
  intro module paths h
  by_cases mem : module ∈ notes.map (·.1)
  · rw [found module mem] at h
    cases Option.some.inj h
    exact nodup_eraseDups _
  · rw [unknown module mem] at h
    cases h

theorem run_concat (calls : List Call) (call : Call) :
    run (calls ++ [call]) = (run calls).bind (·.apply call) := by
  rw [run, List.foldlM_append]
  cases h : calls.foldlM apply {} <;> simp [run, h]

/-- A run leaves the index that the notes make. -/
theorem noted_of_run {calls : List Call} (h : run calls = some index) :
    ∃ notes, Noted calls notes ∧ ofEntries notes = index := by
  induction calls using List.reverseRecOn generalizing index with
  | nil => exact ⟨[], .start, Option.some.inj h⟩
  | append_singleton calls call ih =>
    rw [run_concat] at h
    obtain ⟨before, ran, h⟩ := Option.bind_eq_some_iff.mp h
    cases call with
    | record module path =>
      obtain ⟨notes, noted, rfl⟩ := ih ran
      refine ⟨notes ++ [(module, [path])], .record noted module path, ?_⟩
      rw [ofEntries_concat, ← record_eq_recordAll]
      exact Option.some.inj h
    | decode text =>
      obtain ⟨notes, read, eq⟩ := ofText?_eq_some_iff.mp h
      exact ⟨notes, .decode read calls, eq⟩

theorem run_eq_none_iff (calls : List Call) : run calls = none ↔
    ∃ text, .decode text ∈ calls ∧ ¬∃ notes, WrittenJson.ofText? text = some (writtenNotes notes) := by
  have refused (text : String) : ofText? text = none ↔
      ¬∃ notes, WrittenJson.ofText? text = some (writtenNotes notes) := by
    rw [Option.eq_none_iff_forall_ne_some, ← not_exists, not_iff_not]
    simp only [ofText?_eq_some_iff]
    exact ⟨fun ⟨_, notes, read, _⟩ => ⟨notes, read⟩, fun ⟨notes, read⟩ => ⟨_, notes, read, rfl⟩⟩
  induction calls using List.reverseRecOn with
  | nil => simp [run]
  | append_singleton calls call ih =>
    simp only [List.mem_append, List.mem_singleton, or_and_right, exists_or, ← ih]
    rw [run_concat]
    cases run calls with
    | none => simp
    | some index =>
      cases call with
      | record module path => simp [apply]
      | decode text => simp [apply, refused]

/-- After any calls an index says what was noted, unless a text was refused, and whatever is noted
next only adds to it. -/
theorem run_lists_notes (calls : List Call) :
    (run calls = none ↔ ∃ text, .decode text ∈ calls ∧
      ¬∃ notes, WrittenJson.ofText? text = some (writtenNotes notes)) ∧
    ∀ index, run calls = some index → (∃ notes, Noted calls notes ∧ index.Lists notes) ∧
      ∀ module path, Grows index (index.record module path) module path := by
  refine ⟨run_eq_none_iff calls, fun index ran => ⟨?_, grows_record index⟩⟩
  obtain ⟨notes, noted, rfl⟩ := noted_of_run ran
  exact ⟨notes, noted, lists_ofEntries notes⟩

def sampleCalls : List Call := [
  .record "a" "x.ts",
  .decode "\x7b\"b\":[],\"é\":[\"y.ts\",\"x.ts\",\"y.ts\"],\"c\":[],\"b\":[\"z.ts\"]\x7d",
  .record "a\n" "x.ts", .record "b" "x.ts", .record "b" "z.ts"]

def sampleIndex : ImportIndex :=
  ⟨[("b", ["z.ts", "x.ts"]), ("é", ["y.ts", "x.ts"]), ("c", []), ("a\n", ["x.ts"])]⟩

theorem run_lists_notes_sample :
    run sampleCalls = some sampleIndex ∧
      (∃ notes, Noted sampleCalls notes ∧ sampleIndex.Lists notes) ∧
      ∀ module path, Grows sampleIndex (sampleIndex.record module path) module path := by
  have ran : run sampleCalls = some sampleIndex := by decide +kernel
  exact ⟨ran, (run_lists_notes sampleCalls).2 sampleIndex ran⟩

end Runs

end CodeSurvey.ImportIndex
