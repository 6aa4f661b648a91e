import CodeSurvey.Project.Structure
import CodeSurvey.Proofs.Digest
import CodeSurvey.Proofs.SortedMap

namespace CodeSurvey.Project

open Paths

namespace Kept

def whole? : Kept → Option String
  | whole text => some text
  | digest _ | config _ => none

def digest? : Kept → Option String
  | digest text => some text
  | whole _ | config _ => none

def config? : Kept → Option ConfigEntry
  | config entry => some entry
  | whole _ | digest _ => none

end Kept

variable {α : Type} {files : SortedMap String} {path text : String}

/-- Whether a map of a structure takes just those kept things that a view shows. -/
def Collects (field : Structure → SortedMap α) (view : Kept → Option α) : Prop :=
  ∀ s path kept, field (Structure.place s path kept) =
    match view kept with
    | some a => (field s).insert path a
    | none => field s

theorem keyFiles_collects : Collects Structure.keyFiles Kept.whole? := by
  rintro s path (_ | _ | _) <;> rfl

theorem digests_collects : Collects Structure.digests Kept.digest? := by
  rintro s path (_ | _ | _) <;> rfl

theorem configs_collects : Collects Structure.configs Kept.config? := by
  rintro s path (_ | _ | _) <;> rfl

theorem Collects.foldl_place {field : Structure → SortedMap α} {view : Kept → Option α}
    (h : Collects field view) (placed : List (String × Kept)) (s : Structure) :
    field (placed.foldl (fun s (path, kept) => s.place path kept) s) =
      (placed.filterMap fun (path, kept) => (view kept).map (path, ·)).foldl
        (fun m (path, a) => m.insert path a) (field s) := by
  induction placed generalizing s with
  | nil => rfl
  | cons first rest ih =>
    obtain ⟨path, kept⟩ := first
    rw [List.foldl_cons, ih, h]
    cases hv : view kept with
    | none => simp [hv]
    | some a => simp [hv]

theorem Collects.ofFiles {field : Structure → SortedMap α} {view : Kept → Option α}
    (h : Collects field view) (empty : ∀ tree, field { tree } = {}) (files : SortedMap String) :
    field (.ofFiles files) = files.filterMap fun path content => view (.ofFile path content) := by
  apply SortedMap.eq_of_entries
  rw [Structure.ofFiles, h.foldl_place, empty, List.filterMap_map]
  exact SortedMap.entries_ofList
    (SortedMap.filterMap_sorted (fun path content => view (.ofFile path content)) files.sorted)

theorem get?_ofFiles {field : Structure → SortedMap α} {view : Kept → Option α}
    (h : Collects field view) (empty : ∀ tree, field { tree } = {}) {a : α} :
    (field (.ofFiles files)).get? path = some a ↔
      ∃ content, files.get? path = some content ∧ view (.ofFile path content) = some a := by
  rw [h.ofFiles empty, SortedMap.get?_filterMap, Option.bind_eq_some_iff]

theorem keyFiles_get?_ofFiles : (Structure.ofFiles files).keyFiles.get? path = some text ↔
    classify path = .key ∧ files.get? path = some text := by
  rw [get?_ofFiles keyFiles_collects fun _ => rfl]
  cases hc : classify path <;> simp [Kept.ofFile, Kept.whole?, hc]

theorem digests_get?_ofFiles : (Structure.ofFiles files).digests.get? path = some text ↔
    classify path = .other ∧
      ∃ content, files.get? path = some content ∧ (Digest.digestFile path content).text = text := by
  rw [get?_ofFiles digests_collects fun _ => rfl]
  cases hc : classify path <;> simp [Kept.ofFile, Kept.digest?, hc]

theorem configs_get?_ofFiles {entry : ConfigEntry} :
    (Structure.ofFiles files).configs.get? path = some entry ↔
      classify path = .config ∧
        ∃ content, files.get? path = some content ∧ ConfigEntry.ofText content = entry := by
  rw [get?_ofFiles configs_collects fun _ => rfl]
  cases hc : classify path <;> simp [Kept.ofFile, Kept.config?, hc]

theorem mem_keyFiles_ofFiles : path ∈ (Structure.ofFiles files).keyFiles.keys ↔
    classify path = .key ∧ path ∈ files.keys := by
  simp only [SortedMap.mem_keys_iff_get?, keyFiles_get?_ofFiles]
  grind

theorem mem_digests_ofFiles : path ∈ (Structure.ofFiles files).digests.keys ↔
    classify path = .other ∧ path ∈ files.keys := by
  simp only [SortedMap.mem_keys_iff_get?, digests_get?_ofFiles]
  grind

theorem mem_configs_ofFiles : path ∈ (Structure.ofFiles files).configs.keys ↔
    classify path = .config ∧ path ∈ files.keys := by
  simp only [SortedMap.mem_keys_iff_get?, configs_get?_ofFiles]
  grind

theorem length_by_category (paths : List String) :
    (paths.filter (classify · = .key)).length + (paths.filter (classify · = .other)).length +
      (paths.filter (classify · = .config)).length = paths.length := by
  induction paths with
  | nil => rfl
  | cons path rest ih => cases hc : classify path <;> simp [hc] <;> omega

theorem size_of_category {β : Type} {m : SortedMap β} {c : FileCategory}
    (h : ∀ path, path ∈ m.keys ↔ classify path = c ∧ path ∈ files.keys) :
    m.size = (files.keys.filter (classify · = c)).length := by
  have same : m.keys = files.keys.filter (classify · = c) :=
    SortedMap.sorted_texts_unique m.keys_sorted (files.keys_sorted.filter _)
      fun path => by simp [h, and_comm]
  rw [← same, SortedMap.size, SortedMap.keys, List.length_map]

theorem size_ofFiles (files : SortedMap String) : (Structure.ofFiles files).size = files.size := by
  rw [Structure.size, size_of_category fun _ => mem_keyFiles_ofFiles,
    size_of_category fun _ => mem_digests_ofFiles, size_of_category fun _ => mem_configs_ofFiles,
    length_by_category, SortedMap.keys, List.length_map, SortedMap.size]

theorem category?_ofFiles (files : SortedMap String) (path : String) :
    (Structure.ofFiles files).category? path =
      if path ∈ files.keys then some (classify path) else none := by
  have contained : ∀ {β : Type} (m : SortedMap β), m.contains path = decide (path ∈ m.keys) :=
    fun m => Bool.eq_iff_iff.mpr (by simp [SortedMap.contains_iff])
  simp only [Structure.category?, contained, mem_keyFiles_ofFiles, mem_configs_ofFiles,
    mem_digests_ofFiles]
  cases classify path <;> simp

/-- A structure holds each of some files in exactly one of its maps, in the form that the category
of the file asks for, and nothing else. -/
structure Structure.Partitions (s : Structure) (files : SortedMap String) : Prop where
  keys_digests : s.keyFiles.keys.Disjoint s.digests.keys
  keys_configs : s.keyFiles.keys.Disjoint s.configs.keys
  digests_configs : s.digests.keys.Disjoint s.configs.keys
  union : ∀ path, path ∈ s.keyFiles.keys ∨ path ∈ s.digests.keys ∨ path ∈ s.configs.keys ↔
    path ∈ files.keys
  size : s.size = files.size
  category : ∀ path,
    s.category? path = if path ∈ files.keys then some (classify path) else none
  keyFile : ∀ path text, s.keyFiles.get? path = some text → files.get? path = some text
  config : ∀ path entry, s.configs.get? path = some entry →
    ∃ content, files.get? path = some content ∧ entry = .ofText content
  digest : ∀ path text, s.digests.get? path = some text → text ≠ "" ∧
    ∃ content, files.get? path = some content ∧ text = (Digest.digestFile path content).text

theorem ofFiles_partitions (files : SortedMap String) :
    (Structure.ofFiles files).Partitions files where
  keys_digests := by
    intro path hk hd
    have := (mem_keyFiles_ofFiles.mp hk).1.symm.trans (mem_digests_ofFiles.mp hd).1
    cases this
  keys_configs := by
    intro path hk hc
    have := (mem_keyFiles_ofFiles.mp hk).1.symm.trans (mem_configs_ofFiles.mp hc).1
    cases this
  digests_configs := by
    intro path hd hc
    have := (mem_digests_ofFiles.mp hd).1.symm.trans (mem_configs_ofFiles.mp hc).1
    cases this
  union path := by
    rw [mem_keyFiles_ofFiles, mem_digests_ofFiles, mem_configs_ofFiles]
    cases classify path <;> simp
  size := size_ofFiles files
  category := category?_ofFiles files
  keyFile path text h := (keyFiles_get?_ofFiles.mp h).2
  config path entry h := by
    obtain ⟨-, content, hf, rfl⟩ := configs_get?_ofFiles.mp h
    exact ⟨content, hf, rfl⟩
  digest path text h := by
    obtain ⟨-, content, hf, rfl⟩ := digests_get?_ofFiles.mp h
    exact ⟨Digest.digestFile_text_ne_empty path content, content, hf, rfl⟩

end CodeSurvey.Project
