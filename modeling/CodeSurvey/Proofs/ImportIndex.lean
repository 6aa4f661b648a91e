import CodeSurvey.Project.Survey
import CodeSurvey.Proofs.ByteOrder
import CodeSurvey.Proofs.SortedMap
import Mathlib.Data.List.Induction

namespace CodeSurvey

section FirstOccurrences

variable {α : Type} [BEq α] [LawfulBEq α]

theorem eraseDups_concat (xs : List α) (x : α) :
    (xs ++ [x]).eraseDups = if xs.contains x then xs.eraseDups else xs.eraseDups ++ [x] := by
  have last : [x].removeAll xs = if xs.contains x then [] else [x] := by
    by_cases mem : x ∈ xs <;> simp [List.removeAll, mem]
  rw [List.eraseDups_append, last]
  split <;> simp [List.eraseDups_cons]

theorem eraseDups_sublist (xs : List α) : xs.eraseDups.Sublist xs := by
  induction xs using List.reverseRecOn with
  | nil => exact .slnil
  | append_singleton xs x ih =>
    rw [eraseDups_concat]
    split
    next => exact ih.trans (List.sublist_append_left xs [x])
    next => exact ih.append (.refl [x])

theorem nodup_eraseDups (xs : List α) : xs.eraseDups.Nodup := by
  induction xs using List.reverseRecOn with
  | nil => exact .nil
  | append_singleton xs x ih =>
    rw [eraseDups_concat]
    split
    next => exact ih
    next new =>
      refine List.nodup_append.mpr ⟨ih, by simp, fun a ha b hb eq => new ?_⟩
      rw [List.mem_singleton.mp hb] at eq
      exact List.contains_iff_mem.mpr (eq ▸ List.mem_eraseDups.mp ha)

theorem eraseDups_of_nodup {xs : List α} (h : xs.Nodup) : xs.eraseDups = xs := by
  induction xs using List.reverseRecOn with
  | nil => rfl
  | append_singleton xs x ih =>
    obtain ⟨before, -, apart⟩ := List.nodup_append.mp h
    have new : ¬xs.contains x = true := fun mem =>
      apart x (List.contains_iff_mem.mp mem) x List.mem_cons_self rfl
    rw [eraseDups_concat, if_neg new, ih before]

end FirstOccurrences

namespace ImportIndex

open Project Script

variable {index : ImportIndex} {module : String} {paths : List String}

def modules (index : ImportIndex) : List String := index.entries.map (·.1)

/-- The files noted for a module, none if there is no such module. -/
def pathsOf (index : ImportIndex) (module : String) : List String := (index.get? module).getD []

def addPaths (new paths : List String) : List String :=
  new.foldl (fun paths path => addPath path paths) paths

theorem addPaths_eraseDups (new paths : List String) :
    addPaths new paths.eraseDups = (paths ++ new).eraseDups := by
  induction new generalizing paths with
  | nil => simp [addPaths]
  | cons path new ih =>
    have first : addPath path paths.eraseDups = (paths ++ [path]).eraseDups := by
      rw [addPath, eraseDups_concat]
      simp [List.mem_eraseDups]
    rw [addPaths, List.foldl_cons, first, ← addPaths, ih, List.append_assoc, List.singleton_append]

theorem update_update (f g : List String → List String) (module : String)
    (entries : List (String × List String)) :
    update f module (update g module entries) = update (f ∘ g) module entries := by
  induction entries with
  | nil => simp [update]
  | cons first rest ih =>
    obtain ⟨m, paths⟩ := first
    rw [update, update]
    split
    next eq => simp [update, eq]
    next ne => simp [update, ne, ih]

theorem map_fst_update (f : List String → List String) (module : String)
    (entries : List (String × List String)) :
    (update f module entries).map (·.1) =
      if (entries.map (·.1)).contains module then entries.map (·.1)
      else entries.map (·.1) ++ [module] := by
  induction entries with
  | nil => rfl
  | cons first rest ih =>
    obtain ⟨m, paths⟩ := first
    rw [update]
    split
    next eq => simp [eq]
    next ne =>
      rw [List.map_cons, ih, List.map_cons, List.contains_cons, beq_eq_false_iff_ne.mpr (Ne.symm ne),
        Bool.false_or]
      split <;> rfl

theorem find?_update (f : List String → List String) (module other : String)
    (entries : List (String × List String)) :
    ((update f module entries).find? (·.1 = other)).map (·.2) =
      if other = module then some (f (((entries.find? (·.1 = module)).map (·.2)).getD []))
      else (entries.find? (·.1 = other)).map (·.2) := by
  induction entries with
  | nil =>
    rw [update, List.find?_singleton]
    by_cases eq : other = module <;> simp [eq, eq_comm (a := module)]
  | cons first rest ih =>
    obtain ⟨m, paths⟩ := first
    rw [update]
    split
    next eq =>
      subst eq
      rw [List.find?_cons, List.find?_cons]
      by_cases eq : other = m <;> simp [eq, eq_comm (a := m)]
    next ne =>
      by_cases here : m = other
      · subst here
        simp [ne]
      · simp only [List.find?_cons, here, ne, decide_false, ih]

theorem entries_recordAll (index : ImportIndex) (module : String) (paths : List String) :
    (index.recordAll module paths).entries = update (addPaths paths) module index.entries := by
  have noted (before : List String) (start : ImportIndex)
      (h : start.entries = update (addPaths before) module index.entries) :
      (paths.foldl (fun i path => i.record module path) start).entries =
        update (addPaths (before ++ paths)) module index.entries := by
    induction paths generalizing before start with
    | nil => simpa using h
    | cons path paths ih =>
      have step : (start.record module path).entries =
          update (addPaths (before ++ [path])) module index.entries := by
        rw [record, h, update_update]
        congr
        funext xs
        simp [addPaths, List.foldl_append]
      rw [List.foldl_cons, ih _ _ step, List.append_assoc, List.singleton_append]
  exact noted [] (index.mention module) rfl

theorem record_eq_recordAll (index : ImportIndex) (module path : String) :
    index.record module path = index.recordAll module [path] := by
  have same := entries_recordAll index module [path]
  cases h : index.recordAll module [path]
  rw [h] at same
  cases same
  rfl

theorem modules_recordAll (index : ImportIndex) (module : String) (paths : List String) :
    (index.recordAll module paths).modules =
      if index.modules.contains module then index.modules else index.modules ++ [module] := by
  rw [modules, entries_recordAll, map_fst_update]
  rfl

theorem pathsOf_recordAll (index : ImportIndex) (module other : String) (paths : List String) :
    (index.recordAll module paths).pathsOf other =
      if other = module then addPaths paths (index.pathsOf module) else index.pathsOf other := by
  rw [pathsOf, get?, entries_recordAll, find?_update]
  split <;> rfl

theorem ofEntries_concat (entries : List (String × List String)) (module : String)
    (paths : List String) :
    ofEntries (entries ++ [(module, paths)]) = (ofEntries entries).recordAll module paths := by
  rw [ofEntries, List.foldl_append]
  rfl

theorem modules_ofEntries (entries : List (String × List String)) :
    (ofEntries entries).modules = (entries.map (·.1)).eraseDups := by
  induction entries using List.reverseRecOn with
  | nil => rfl
  | append_singleton entries last ih =>
    rw [ofEntries_concat, modules_recordAll, ih, List.map_append, List.map_cons, List.map_nil,
      eraseDups_concat]
    simp only [List.contains_eq_mem, List.mem_eraseDups]

theorem pathsOf_ofEntries (entries : List (String × List String)) (module : String) :
    (ofEntries entries).pathsOf module =
      ((entries.filter (·.1 = module)).flatMap (·.2)).eraseDups := by
  induction entries using List.reverseRecOn with
  | nil => rfl
  | append_singleton entries last ih =>
    obtain ⟨m, paths⟩ := last
    rw [ofEntries_concat, pathsOf_recordAll]
    split
    next eq =>
      subst eq
      rw [ih, addPaths_eraseDups]
      simp
    next ne => rw [ih]; simp [Ne.symm ne]

theorem pathsOf_of_get? (h : index.get? module = some paths) : index.pathsOf module = paths := by
  rw [pathsOf, h, Option.getD_some]

theorem get?_eq_some_pathsOf (h : module ∈ index.modules) :
    index.get? module = some (index.pathsOf module) := by
  obtain ⟨⟨m, paths⟩, mem, rfl⟩ := List.mem_map.mp h
  have found : (index.entries.find? (·.1 = m)).isSome :=
    List.find?_isSome.mpr ⟨(m, paths), mem, decide_eq_true rfl⟩
  obtain ⟨e, he⟩ := Option.isSome_iff_exists.mp found
  simp [pathsOf, get?, he]

theorem get?_eq_none (h : module ∉ index.modules) : index.get? module = none := by
  rw [get?, Option.map_eq_none_iff, List.find?_eq_none]
  intro e he eq
  exact h (List.mem_map.mpr ⟨e, he, of_decide_eq_true eq⟩)

theorem isSome_get?_iff : (index.get? module).isSome = true ↔ module ∈ index.modules := by
  by_cases mem : module ∈ index.modules
  · simp [get?_eq_some_pathsOf mem, mem]
  · simp [get?_eq_none mem, mem]

end ImportIndex

namespace Project

open Script

variable {files : SortedMap FileSurvey} {module path : String}

/-- All imports, each with the file in which it stands. -/
def importNotes (files : SortedMap FileSurvey) : List (String × List String) :=
  files.entries.flatMap fun (path, s) => s.imports.map fun i => (i.source, [path])

theorem dependencies_eq_ofEntries (files : SortedMap FileSurvey) :
    (totals files).dependencies = .ofEntries (importNotes files) := by
  have noted : ∀ index path (s : FileSurvey), noteImports index path s =
      (s.imports.map fun i => (i.source, [path])).foldl
        (fun index note => index.recordAll note.1 note.2) index := by
    intro index path s
    rw [List.foldl_map, noteImports]
    simp only [ImportIndex.record_eq_recordAll]
  simp only [totals, ImportIndex.ofEntries, importNotes, List.foldl_flatMap, noted]

/-- The modules as they are named from file to file, in the order of the bytes of their paths. -/
def importSequence (files : SortedMap FileSurvey) : List String :=
  (files.entries.mergeSort fun a b => Text.bytes a.1 ≤ Text.bytes b.1).flatMap fun (_, s) =>
    s.imports.map (·.source)

theorem importSequence_eq (files : SortedMap FileSurvey) :
    importSequence files = (importNotes files).map (·.1) := by
  have inOrder : files.entries.Pairwise fun a b =>
      decide (Text.bytes a.1 ≤ Text.bytes b.1) = true :=
    files.sorted.imp fun lt => decide_eq_true (Text.bytes_le_iff.mpr (String.not_lt.mp (String.lt_asymm lt)))
  rw [importSequence, List.mergeSort_of_pairwise inOrder, importNotes, List.map_flatMap]
  simp only [List.map_map, Function.comp_def]

theorem paths_importNotes (files : SortedMap FileSurvey) (module : String) :
    ((importNotes files).filter (·.1 = module)).flatMap (·.2) =
      files.entries.flatMap fun (path, s) =>
        (s.imports.filter (·.source = module)).map fun _ => path := by
  rw [importNotes, List.filter_flatMap, List.flatMap_assoc]
  congr
  funext (path, s)
  rw [List.filter_map, List.flatMap_map]
  exact List.map_eq_flatMap.symm

theorem pathsOf_sorted (files : SortedMap FileSurvey) (module : String) :
    ((totals files).dependencies.pathsOf module).Pairwise (· < ·) := by
  have weak : (files.entries.flatMap fun (path, s) =>
      (s.imports.filter (·.source = module)).map fun _ => path).Pairwise
        fun a b => a = b ∨ a < b := by
    rw [List.pairwise_flatMap]
    constructor
    · rintro ⟨path, s⟩ -
      exact List.pairwise_map.mpr (List.pairwise_of_forall fun _ _ => .inl rfl)
    · refine files.sorted.imp fun {a b} lt x hx y hy => ?_
      obtain ⟨-, -, rfl⟩ := List.mem_map.mp hx
      obtain ⟨-, -, rfl⟩ := List.mem_map.mp hy
      exact .inr lt
  rw [dependencies_eq_ofEntries, ImportIndex.pathsOf_ofEntries, paths_importNotes]
  exact ((weak.sublist (eraseDups_sublist _)).and (nodup_eraseDups _)).imp
    fun ⟨le, ne⟩ => le.resolve_left ne

theorem mem_pathsOf_iff : path ∈ (totals files).dependencies.pathsOf module ↔
    ∃ s, files.get? path = some s ∧ ∃ i ∈ s.imports, i.source = module := by
  rw [dependencies_eq_ofEntries, ImportIndex.pathsOf_ofEntries, paths_importNotes,
    List.mem_eraseDups, List.mem_flatMap]
  simp only [SortedMap.get?_eq_some_iff, Prod.exists, List.mem_map, List.mem_filter,
    decide_eq_true_eq]
  grind

/-- An index that tells which files import which modules, and nothing else: the importers of a
module in the order of the bytes of their paths, and modules in the order in which they are named
first. -/
structure Represents (index : ImportIndex) (files : SortedMap FileSurvey) : Prop where
  present : ∀ module, module ∈ index.modules ↔
    ∃ path s, files.get? path = some s ∧ ∃ i ∈ s.imports, i.source = module
  found : ∀ module, (index.get? module).isSome = true ↔ module ∈ index.modules
  sorted : ∀ module paths, index.get? module = some paths →
    paths.Pairwise fun a b => Text.bytes a < Text.bytes b
  importers : ∀ module paths, index.get? module = some paths → ∀ path, path ∈ paths ↔
    ∃ s, files.get? path = some s ∧ ∃ i ∈ s.imports, i.source = module
  order : index.modules = (importSequence files).eraseDups

theorem modules_eq_eraseDups (files : SortedMap FileSurvey) :
    (totals files).dependencies.modules = (importSequence files).eraseDups := by
  rw [dependencies_eq_ofEntries, ImportIndex.modules_ofEntries, importSequence_eq]

theorem mem_modules_iff : module ∈ (totals files).dependencies.modules ↔
    ∃ path s, files.get? path = some s ∧ ∃ i ∈ s.imports, i.source = module := by
  rw [modules_eq_eraseDups, List.mem_eraseDups, importSequence_eq, importNotes, List.map_flatMap,
    List.mem_flatMap]
  simp only [SortedMap.get?_eq_some_iff, Prod.exists, List.map_map, List.mem_map,
    Function.comp_apply]

theorem totals_dependencies_represent (files : SortedMap FileSurvey) :
    Represents (totals files).dependencies files where
  present _ := mem_modules_iff
  found _ := ImportIndex.isSome_get?_iff
  sorted module paths h := by
    rw [← ImportIndex.pathsOf_of_get? h]
    exact (pathsOf_sorted files module).imp Text.bytes_lt_of_lt
  importers module paths h path := by
    rw [← ImportIndex.pathsOf_of_get? h]
    exact mem_pathsOf_iff
  order := modules_eq_eraseDups files

end Project

end CodeSurvey
