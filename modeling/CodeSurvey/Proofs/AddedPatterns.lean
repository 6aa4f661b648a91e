import CodeSurvey.Proofs.Overrides

namespace CodeSurvey.Loading

open Paths

variable {rules more : List IgnoreRule} {isFolder : Bool}

theorem verdict_ne_unknown_iff {path : List UInt8} :
    IgnoreRule.verdict rules path isFolder ≠ .unknown ↔
      ∃ r ∈ rules, r.applies path isFolder = true := by
  constructor
  · intro known
    rw [IgnoreRule.verdict] at known
    split at known
    next => exact absurd rfl known
    next r found =>
      exact ⟨r, List.mem_reverse.mp (List.mem_of_find?_eq_some found), List.find?_some found⟩
  · rintro ⟨r, mem, applies⟩
    exact verdict_ne_unknown mem applies

namespace WalkOptions

variable {o : WalkOptions} {fuel nodes : Nat} {levels : List Level} {above : List (List String)}
  {path : List String} {entries : List (String × FileNode)} {file : List String × FileNode}

theorem leavesOut_mono (sub : o.overrides ⊆ more) (h : o.leavesOut levels path isFolder = true) :
    { o with overrides := more }.leavesOut levels path isFolder = true := by
  rw [leavesOut, Bool.or_eq_true, Bool.or_eq_true, decide_eq_true_iff, decide_eq_true_iff] at h ⊢
  rcases h with (hidden | known) | ignored
  · exact .inl (.inl hidden)
  · obtain ⟨r, mem, applies⟩ := verdict_ne_unknown_iff.mp known
    exact .inl (.inr (verdict_ne_unknown_iff.mpr ⟨r, sub mem, applies⟩))
  · exact .inr ignored

theorem mem_files_of_mem (sub : o.overrides ⊆ more)
    (h : file ∈ { o with overrides := more }.files fuel levels above path entries) :
    file ∈ o.files fuel levels above path entries := by
  induction fuel generalizing levels above path entries with
  | zero => cases h
  | succ fuel ih =>
    rw [files, List.mem_flatMap] at h ⊢
    obtain ⟨⟨name, node⟩, mem, h⟩ := h
    refine ⟨(name, node), mem, ?_⟩
    have same : { o with overrides := more }.target? above (above.headD []) name node =
        o.target? above (above.headD []) name node := rfl
    dsimp only at h ⊢
    rw [same] at h
    cases reached : o.target? above (above.headD []) name node with
    | none =>
      rw [reached] at h
      cases h
    | some place =>
      obtain ⟨target, found⟩ := place
      rw [reached] at h
      dsimp only at h ⊢
      by_cases out : o.leavesOut levels (path ++ [name]) found.isFolder = true
      · rw [if_pos (leavesOut_mono sub out)] at h
        cases h
      · rw [if_neg out]
        split at h
        next => cases h
        next =>
          cases found with
          | folder inner => exact ih h
          | link target => cases h
          | file | unreadable => exact h

theorem mem_walk_of_mem (sub : o.overrides ⊆ more)
    (h : file ∈ { o with overrides := more }.walk nodes) : file ∈ o.walk nodes := by
  unfold walk at h ⊢
  dsimp only at h ⊢
  split at h
  next => exact mem_files_of_mem sub h
  next => exact h
  next => cases h

end WalkOptions

section Patterns

variable {disk : Disk} {root : FileNode} {path pattern : String} {start : List String}
  {o : LoadOptions} {engine : Engine} {patterns : List String}

theorem overrides_subset (sub : o.ignorePatterns ⊆ patterns)
    (builds : CanBuild engine patterns ∨ ¬CanBuild engine o.ignorePatterns) :
    o.overrides engine ⊆ ({ o with ignorePatterns := patterns } : LoadOptions).overrides engine := by
  by_cases old : CanBuild engine o.ignorePatterns
  · have new : ({ o with ignorePatterns := patterns } : LoadOptions).overrides engine =
        rulesOf patterns := overrides_of_canBuild (builds.resolve_right (not_not.mpr old))
    rw [overrides_of_canBuild old, new]
    exact List.filterMap_subset _ sub
  · rw [overrides_of_not_canBuild old]
    exact List.nil_subset _

theorem mem_filesAt_of_mem {file : List String × FileNode}
    (sub : o.overrides engine ⊆ ({ o with ignorePatterns := patterns } : LoadOptions).overrides engine)
    (h : file ∈ filesAt root path start { o with ignorePatterns := patterns } engine) :
    file ∈ filesAt root path start o engine := by
  unfold filesAt at h ⊢
  by_cases dash : path = "-"
  · rw [if_pos dash] at h
    cases h
  · rw [if_neg dash] at h ⊢
    exact WalkOptions.mem_walk_of_mem (o := walkAt root start o engine) sub h

/-- All that was loaded was loaded here too, with the same text. -/
def LoadedFiles.Within (few many : LoadedFiles) : Prop :=
  ∀ key text, few.files.get? key = some text → many.files.get? key = some text

theorem LoadedFiles.Within.keys_subset {few many : LoadedFiles} (within : few.Within many) :
    few.files.keys ⊆ many.files.keys := by
  intro key mem
  obtain ⟨text, entry⟩ := SortedMap.mem_keys_iff_get?.mp mem
  exact SortedMap.mem_keys_iff_get?.mpr ⟨text, within key text entry⟩

theorem load_within (proper : disk.top.Proper) (path : String)
    (sub : o.overrides engine ⊆
      ({ o with ignorePatterns := patterns } : LoadOptions).overrides engine) :
    (load disk path o engine = .error (.notFound path) ∧
      load disk path { o with ignorePatterns := patterns } engine = .error (.notFound path)) ∨
    ∃ many few, load disk path o engine = .ok many ∧
      load disk path { o with ignorePatterns := patterns } engine = .ok few ∧ few.Within many := by
  cases h : disk.resolve? path with
  | none => exact .inl ⟨by rw [load, h], by rw [load, h]⟩
  | some start =>
    have loaded := load_eq proper h o engine
    have loadedNew := load_eq proper h { o with ignorePatterns := patterns } engine
    refine .inr ⟨_, _, loaded, loadedNew, fun key text entry => ?_⟩
    have accounts := accounts_load proper h loaded
    have accountsNew := accounts_load proper h loadedNew
    obtain ⟨file, mem, named, taken⟩ := (accountsNew.files key text).mp entry
    exact (accounts.files key text).mpr ⟨file, mem_filesAt_of_mem sub mem, named, taken⟩

/-- With more patterns only files that are loaded without them are loaded, unless the new ones keep
all from being run together. When patterns cannot be run together, all is loaded as if there were
none. -/
theorem load_morePatterns (proper : disk.top.Proper) (path : String) (o : LoadOptions)
    (engine : Engine) {patterns : List String} (sub : o.ignorePatterns ⊆ patterns) :
    (CanBuild engine patterns ∨ ¬CanBuild engine o.ignorePatterns →
      (load disk path o engine = .error (.notFound path) ∧
        load disk path { o with ignorePatterns := patterns } engine = .error (.notFound path)) ∨
      ∃ many few, load disk path o engine = .ok many ∧
        load disk path { o with ignorePatterns := patterns } engine = .ok few ∧ few.Within many) ∧
    (¬CanBuild engine patterns →
      load disk path { o with ignorePatterns := patterns } engine =
        load disk path { o with ignorePatterns := [] } engine) :=
  ⟨fun builds => load_within proper path (overrides_subset sub builds),
    fun stuck => load_of_not_canBuild stuck o disk path⟩

end Patterns

section Samples

def scriptFolder : FileNode := .folder [
  (".gitignore", .file "!b/\n".toUTF8),
  ("a.js", .file ⟨#[120]⟩),
  ("b", .folder [("c.js", .file ⟨#[121]⟩)])]

theorem scriptFolder_proper : scriptFolder.Proper := by
  have inner : (FileNode.folder [("c.js", .file ⟨#[121]⟩)]).Proper :=
    .folder (List.nodup_singleton _) (by decide) (by simp [FileNode.Proper.file])
  refine .folder (by decide) (by decide) ?_
  simp only [List.forall_mem_cons]
  exact ⟨.file _, .file _, inner, nofun⟩

def samplePatterns : List String := ["#", "*.ts", "b/", "a[", "!c"]

theorem samplePatterns_canBuild : CanBuild .standard samplePatterns := by decide +kernel

def deepPattern : String := String.ofList (nestedText 300)

theorem deepPattern_stuck (pattern : String) : ¬CanBuild .standard [pattern, deepPattern] :=
  fun h => not_canRun_nested (canBuild_standard_iff.mp h _ (by simp [deepPattern]))

/-- Some patterns, and the files that are loaded with them. -/
def sampleRuns : List (List String × List String) :=
  [(["*.ts"], ["a.js", "b/c.js"]), (samplePatterns, ["a.js"]), (["*.js"], []),
    ([], ["a.js", "b/c.js"])]

theorem load_scriptFolder {patterns keys : List String} (h : (patterns, keys) ∈ sampleRuns) :
    ∃ l, load scriptFolder.disk "." { ignorePatterns := patterns } = .ok l ∧
      l.files.keys = keys := by
  have runs : ∀ run ∈ sampleRuns, (load scriptFolder.disk "."
      { ignorePatterns := run.1 }).toOption.map (·.files.keys) = some run.2 := by
    decide +kernel
  exact @exists_load _ _ _ .standard keys (runs (patterns, keys) h)

theorem load_morePatterns_sample :
    scriptFolder.Proper ∧ ["*.ts"] ⊆ samplePatterns ∧ CanBuild .standard samplePatterns ∧
      (∃ many few, load scriptFolder.disk "." { ignorePatterns := ["*.ts"] } = .ok many ∧
        load scriptFolder.disk "." { ignorePatterns := samplePatterns } = .ok few ∧
        few.Within many ∧
        many.files.keys = ["a.js", "b/c.js"] ∧ few.files.keys = ["a.js"]) ∧
      ¬CanBuild .standard ["*.ts", deepPattern] ∧
      load scriptFolder.disk "." { ignorePatterns := ["*.ts", deepPattern] } =
        load scriptFolder.disk "." { ignorePatterns := [] } := by
  have sub : ["*.ts"] ⊆ samplePatterns := by decide
  have proper : scriptFolder.disk.top.Proper := scriptFolder_proper
  have laws {patterns : List String} (sub : ["*.ts"] ⊆ patterns) :=
    load_morePatterns proper "." { ignorePatterns := ["*.ts"] } .standard sub
  obtain ⟨many, loaded, keys⟩ := @load_scriptFolder ["*.ts"] ["a.js", "b/c.js"] (by decide)
  obtain ⟨few, loadedNew, keysNew⟩ := @load_scriptFolder samplePatterns ["a.js"] (by decide)
  have within : few.Within many := by
    rcases (laws sub).1 (.inl samplePatterns_canBuild) with
      ⟨failed, -⟩ | ⟨many', few', loaded', loadedNew', within⟩
    · rw [loaded] at failed
      cases failed
    · obtain rfl := Except.ok.inj (loaded.symm.trans loaded')
      obtain rfl := Except.ok.inj (loadedNew.symm.trans loadedNew')
      exact within
  exact ⟨scriptFolder_proper, sub, samplePatterns_canBuild,
    ⟨many, few, loaded, loadedNew, within, keys, keysNew⟩, deepPattern_stuck "*.ts",
    (laws (List.subset_append_left ["*.ts"] [deepPattern])).2 (deepPattern_stuck "*.ts")⟩

/-- With one more pattern, which cannot be run, a file is loaded that was left out without it. -/
theorem load_morePatterns_stuck :
    scriptFolder.Proper ∧ ["*.js"].Sublist ["*.js", deepPattern] ∧
      ∃ many few, load scriptFolder.disk "." { ignorePatterns := ["*.js"] } = .ok many ∧
        load scriptFolder.disk "." { ignorePatterns := ["*.js", deepPattern] } = .ok few ∧
        ¬few.Within many := by
  have same := load_of_not_canBuild (deepPattern_stuck "*.js") { ignorePatterns := ["*.js"] }
    scriptFolder.disk "."
  obtain ⟨many, loaded, keys⟩ := @load_scriptFolder ["*.js"] [] (by decide)
  obtain ⟨few, loadedNew, keysNew⟩ := @load_scriptFolder [] ["a.js", "b/c.js"] (by decide)
  refine ⟨scriptFolder_proper, by simp, many, few, loaded, same.trans loadedNew, fun within => ?_⟩
  have new : "a.js" ∈ few.files.keys := by rw [keysNew]; decide
  obtain ⟨text, entry⟩ := SortedMap.mem_keys_iff_get?.mp new
  have old : "a.js" ∈ many.files.keys := SortedMap.mem_keys_iff_get?.mpr ⟨text, within _ _ entry⟩
  rw [keys] at old
  cases old

end Samples

end CodeSurvey.Loading
