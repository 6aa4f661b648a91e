import CodeSurvey.Proofs.AddedPatterns
import CodeSurvey.Proofs.WantedFiles

namespace CodeSurvey.Loading

open Paths

variable {o p : LoadOptions} {name path : String} {file : List String × FileNode}
  {found : List (List String × FileNode)}

/-- Whether one limit allows no more than another. No limit allows all sizes. -/
def LimitWithin (low high : Option Nat) : Prop :=
  ∀ n, high = some n → ∃ m, low = some m ∧ m ≤ n

namespace LoadOptions

/-- The same options but for the extensions and the limit. -/
def choosing (o : LoadOptions) (extensions : Option (List String)) (limit : Option Nat) : LoadOptions :=
  { o with extensions, maxFileSize := limit }

theorem wantedExtensions_default :
    ({ extensions := some defaultExtensions } : LoadOptions).wantedExtensions = defaultExtensions := by
  have plain : ∀ extension ∈ defaultExtensions, extension.toList.all Text.isPlain = true ∧
      extension.toList.dropWhile (· = '.') = extension.toList := by decide
  refine (List.map_congr_left (g := id) fun extension mem => ?_).trans (List.map_id _)
  obtain ⟨plain, noDot⟩ := plain extension mem
  rw [noDot, String.ofList_toList, Text.lower_plain plain]
  rfl

theorem filesAt_choosing {root : FileNode} {start : List String} {engine : Engine}
    (o : LoadOptions) (extensions : Option (List String)) (limit : Option Nat) :
    filesAt root path start (o.choosing extensions limit) engine = filesAt root path start o engine :=
  rfl

theorem Allows.mono (limit : LimitWithin o.maxFileSize p.maxFileSize) {size : Nat}
    (h : o.Allows size) : p.Allows size := by
  intro n high
  obtain ⟨m, low, le⟩ := limit n high
  exact (h m low).trans le

theorem isWanted_wider (sub : o.wantedExtensions ⊆ p.wantedExtensions) (h : o.isWanted name = true) :
    p.isWanted name = true ∨ o.extensions = none ∧ p.extensions ≠ none ∧ name ∈ defaultNames := by
  unfold isWanted at h ⊢
  dsimp only at h ⊢
  split at h
  next extension found =>
    exact .inl (List.contains_iff_mem.mpr (sub (List.contains_iff_mem.mp h)))
  next bare =>
    obtain ⟨absent, listed⟩ := Bool.and_eq_true_iff.mp h
    have listed := List.contains_iff_mem.mp listed
    by_cases given : p.extensions = none
    · exact .inl (Bool.and_eq_true_iff.mpr ⟨by rw [given]; rfl, List.contains_iff_mem.mpr listed⟩)
    · exact .inr ⟨Option.isNone_iff_eq_none.mp absent, given, listed⟩

theorem isWanted_given (given : p.extensions ≠ none) (listed : name ∈ defaultNames) :
    p.isWanted name = false := by
  have bare : ∀ name ∈ defaultNames, (extensionOf? name).isNone = true ∧
      name.toList.head? ≠ some '.' := by
    decide
  obtain ⟨plain, first⟩ := bare name listed
  have none : p.extensions.isNone = false := Option.isNone_eq_false_iff.mpr
    (Option.isSome_iff_ne_none.mpr given)
  rw [isWanted, Option.isNone_iff_eq_none.mp plain, none, Bool.false_and]
  split
  next _ found =>
    split at found
    next rest eq => exact absurd (by rw [eq]; rfl) first
    next => cases found
  next => rfl

theorem fate_wider (wanted : p.isWanted (nameOf path file.1) = true)
    (limit : LimitWithin o.maxFileSize p.maxFileSize) (h : o.fate path file ≠ .skipped) :
    p.fate path file = o.fate path file := by
  cases before : o.fate path file with
  | loaded key text =>
    obtain ⟨named, -, content, eq, allowed, plain, whole⟩ := fate_eq_loaded_iff.mp before
    exact fate_eq_loaded_iff.mpr ⟨named, wanted, content, eq, allowed.mono limit, plain, whole⟩
  | failed =>
    obtain ⟨-, size, eq, allowed⟩ := fate_eq_failed_iff.mp before
    exact fate_eq_failed_iff.mpr ⟨wanted, size, eq, allowed.mono limit⟩
  | skipped => exact absurd before h

end LoadOptions

/-- Whether a file is found under a key that is wanted for its whole name if no extensions are
given. -/
def FoundByName (found : List (List String × FileNode)) (path key : String) : Prop :=
  ∃ file ∈ found, joined file.1 = key ∧ nameOf path file.1 ∈ defaultNames

theorem LoadedFiles.Accounts.get?_eq_some_iff {l : LoadedFiles} (accounts : l.Accounts o path found)
    {key text : String} :
    l.files.get? key = some text ↔ ∃ file ∈ found, o.fate path file = .loaded key text := by
  simp only [accounts.files, fate_eq_loaded_iff]

theorem WalkOptions.Finds.eq_of_key (finds : Finds found) {other : List String × FileNode}
    (mem : file ∈ found) (mem' : other ∈ found) (same : joined file.1 = joined other.1) :
    file = other :=
  List.inj_on_of_nodup_map finds.distinct mem mem' same

variable {disk : Disk} {engine : Engine} {few many : LoadedFiles}

theorem LoadedFiles.Accounts.wider (sub : o.wantedExtensions ⊆ p.wantedExtensions)
    (limit : LimitWithin o.maxFileSize p.maxFileSize) (fewer : few.Accounts o path found)
    (more : many.Accounts p path found) {key text : String} (h : few.files.get? key = some text) :
    many.files.get? key = some text ∨
      o.extensions = none ∧ p.extensions ≠ none ∧ FoundByName found path key := by
  obtain ⟨file, mem, loaded⟩ := fewer.get?_eq_some_iff.mp h
  obtain ⟨named, wanted, -⟩ := fate_eq_loaded_iff.mp loaded
  rcases LoadOptions.isWanted_wider sub wanted with wanted | ⟨absent, given, listed⟩
  · have same := LoadOptions.fate_wider wanted limit (by rw [loaded]; exact nofun)
    exact .inl (more.get?_eq_some_iff.mpr ⟨file, mem, same.trans loaded⟩)
  · exact .inr ⟨absent, given, file, mem, named, listed⟩

theorem LoadedFiles.Accounts.get?_given (given : o.extensions ≠ none)
    (accounts : few.Accounts o path found) {key : String} (listed : FoundByName found path key) :
    few.files.get? key = none := by
  obtain ⟨file, mem, rfl, listed⟩ := listed
  refine Option.eq_none_iff_forall_ne_some.mpr fun text entry => ?_
  obtain ⟨other, mem', loaded⟩ := accounts.get?_eq_some_iff.mp entry
  obtain ⟨named, wanted, -⟩ := fate_eq_loaded_iff.mp loaded
  obtain rfl := accounts.finds.eq_of_key mem' mem named
  rw [LoadOptions.isWanted_given given listed] at wanted
  cases wanted

/-- Whatever the extensions and the limit are, the same number of files is accounted for. With more
extensions and a higher limit, all that is loaded stays loaded with its text; only files that are
loaded for their whole names are not, if extensions are given where none were. -/
theorem load_moreExtensions (proper : disk.top.Proper) (path : String) (o : LoadOptions)
    (engine : Engine) (extensions : Option (List String)) (limit : Option Nat) :
    (load disk path o engine = .error (.notFound path) ∧
        load disk path (o.choosing extensions limit) engine = .error (.notFound path)) ∨
      ∃ start few many, disk.resolve? path = some start ∧ load disk path o engine = .ok few ∧
        load disk path (o.choosing extensions limit) engine = .ok many ∧
        few.files.size + few.skipped + few.errors =
          many.files.size + many.skipped + many.errors ∧
        (o.wantedExtensions ⊆ (o.choosing extensions limit).wantedExtensions →
          LimitWithin o.maxFileSize limit →
          (o.extensions ≠ none ∨ extensions = none → few.Within many) ∧
          (o.extensions = none → extensions ≠ none → ∀ key text, few.files.get? key = some text →
            (FoundByName (filesAt disk.top path start o engine) path key →
              many.files.get? key = none) ∧
            (¬FoundByName (filesAt disk.top path start o engine) path key →
              many.files.get? key = some text))) := by
  cases h : disk.resolve? path with
  | none => exact .inl ⟨by rw [load, h], by rw [load, h]⟩
  | some start =>
    have loaded := load_eq proper h o engine
    have loadedMore := load_eq proper h (o.choosing extensions limit) engine
    have fewer := accounts_load proper h loaded
    have more := accounts_load proper h loadedMore
    rw [LoadOptions.filesAt_choosing] at more
    refine .inr ⟨start, _, _, rfl, loaded, loadedMore, fewer.balance.trans more.balance.symm, ?_⟩
    intro sub higher
    refine ⟨fun kept key text entry => ?_, fun absent given key text entry => ⟨?_, ?_⟩⟩
    · rcases fewer.wider sub higher more entry with there | bare
      · exact there
      · exact absurd (kept.resolve_left (not_not.mpr bare.1)) bare.2.1
    · exact more.get?_given given
    · intro other
      rcases fewer.wider sub higher more entry with there | bare
      · exact there
      · exact absurd bare.2.2 other

section Samples

def bareFolder : FileNode := .folder [
  ("Dockerfile", .file ⟨#[120]⟩),
  ("a.js", .file ⟨#[121]⟩),
  ("b.JS", .file ⟨#[122, 122]⟩)]

theorem bareFolder_proper : bareFolder.Proper := by
  refine .folder (by decide) (by decide) ?_
  simp only [List.forall_mem_cons]
  exact ⟨.file _, .file _, .file _, nofun⟩

theorem load_moreExtensions_sample :
    bareFolder.Proper ∧ ["js"] ⊆ ({ extensions := some [".JS", "ts"] } : LoadOptions).wantedExtensions ∧
      LimitWithin (some 1) none ∧
      ∃ few many,
        load bareFolder.disk "." { extensions := some ["js"], maxFileSize := some 1 } = .ok few ∧
        load bareFolder.disk "." { extensions := some [".JS", "ts"] } = .ok many ∧
        few.files.size + few.skipped + few.errors = many.files.size + many.skipped + many.errors ∧
        few.Within many ∧ few.files.keys = ["a.js"] ∧ many.files.keys = ["a.js", "b.JS"] := by
  have sub : ["js"] ⊆ ({ extensions := some [".JS", "ts"] } : LoadOptions).wantedExtensions := by
    decide
  have higher : LimitWithin (some 1) none := nofun
  obtain ⟨few, loaded, keys⟩ := @exists_load bareFolder.disk "."
    { extensions := some ["js"], maxFileSize := some 1 } .standard ["a.js"] (by decide +kernel)
  obtain ⟨many, loadedMore, keysMore⟩ := @exists_load bareFolder.disk "."
    { extensions := some [".JS", "ts"] } .standard ["a.js", "b.JS"] (by decide +kernel)
  have few_sub : ({ extensions := some ["js"], maxFileSize := some 1 } : LoadOptions).wantedExtensions ⊆
      ({ extensions := some [".JS", "ts"] } : LoadOptions).wantedExtensions := by decide
  have proper : bareFolder.disk.top.Proper := bareFolder_proper
  refine ⟨bareFolder_proper, sub, higher, few, many, loaded, loadedMore, ?_⟩
  rcases load_moreExtensions proper "."
      { extensions := some ["js"], maxFileSize := some 1 } .standard (some [".JS", "ts"]) none with
    ⟨failed, -⟩ | ⟨start, few', many', -, loaded', loadedMore', balance, wider⟩
  · rw [loaded] at failed
    cases failed
  · obtain rfl := Except.ok.inj (loaded.symm.trans loaded')
    obtain rfl := Except.ok.inj (loadedMore.symm.trans loadedMore')
    exact ⟨balance, (wider few_sub higher).1 (.inl nofun), keys, keysMore⟩

/-- With the extensions given that are wanted if none are, a file is no longer loaded. -/
theorem load_moreExtensions_bare :
    bareFolder.Proper ∧
      ({} : LoadOptions).wantedExtensions ⊆
        ({ extensions := some defaultExtensions } : LoadOptions).wantedExtensions ∧
      LimitWithin none none ∧
      ∃ few many, load bareFolder.disk "." {} = .ok few ∧
        load bareFolder.disk "." { extensions := some defaultExtensions } = .ok many ∧
        ¬few.Within many := by
  obtain ⟨few, loaded, keys⟩ := @exists_load bareFolder.disk "." {} .standard
    ["Dockerfile", "a.js", "b.JS"] (by decide +kernel)
  obtain ⟨many, loadedMore, keysMore⟩ := @exists_load bareFolder.disk "."
    { extensions := some defaultExtensions } .standard ["a.js", "b.JS"] (by decide +kernel)
  refine ⟨bareFolder_proper, ?_, nofun, few, many, loaded, loadedMore, fun within => ?_⟩
  · rw [LoadOptions.wantedExtensions_default]
    exact List.Subset.refl _
  · have kept : "Dockerfile" ∈ many.files.keys := within.keys_subset (by rw [keys]; decide)
    rw [keysMore] at kept
    simp at kept

end Samples

end CodeSurvey.Loading
