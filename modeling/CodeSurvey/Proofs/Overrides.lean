import CodeSurvey.Proofs.Loading
import CodeSurvey.Proofs.Patterns
import CodeSurvey.Proofs.SortedMap
import CodeSurvey.Settings

namespace CodeSurvey.Loading

open Paths

namespace WalkOptions

variable {o : WalkOptions} {levels : List Level} {path way : List String} {name : String}

theorem leavesOut_versionControl (o : WalkOptions) (levels : List Level) (path : List String)
    (isFolder : Bool) : o.leavesOut levels (path ++ [".git"]) isFolder = true := by
  simp [leavesOut]

theorem leavesOut_folder (mem : .folder name ∈ o.overrides) (levels : List Level)
    (path : List String) : o.leavesOut levels (path ++ [name]) true = true := by
  simp [leavesOut, verdict_ne_unknown mem (applies_folder path name)]

theorem Kept.versionControl_notMem (h : o.Kept path way) : ".git" ∉ way := by
  have ne {levels path name isFolder} (kept : o.leavesOut levels (path ++ [name]) isFolder = false) :
      ".git" ≠ name := by
    rintro rfl
    exact absurd (leavesOut_versionControl o levels path isFolder) (Bool.eq_false_iff.mp kept)
  induction h with
  | file kept => exact List.not_mem_cons_of_ne_of_not_mem (ne kept) List.not_mem_nil
  | folder kept _ ih => exact List.not_mem_cons_of_ne_of_not_mem (ne kept) ih

theorem Kept.folder_notMem (mem : .folder name ∈ o.overrides) (h : o.Kept path way) :
    name ∉ way.dropLast := by
  induction h with
  | file => exact List.not_mem_nil
  | @folder levels path way step kept below ih =>
    have ne : name ≠ step := by
      rintro rfl
      exact absurd (leavesOut_folder mem levels path) (Bool.eq_false_iff.mp kept)
    cases below with
    | file | folder => exact List.not_mem_cons_of_ne_of_not_mem ne ih

theorem Kept.ne_nil (h : o.Kept path way) : way ≠ [] := by
  cases h <;> exact List.cons_ne_nil _ _

theorem exists_kept {file : List String × FileNode} {nodes : Nat} (root : o.root.Proper)
    (noLink : ∀ target, o.root.descend? o.start ≠ some (.link target)) (h : file ∈ o.walk nodes) :
    file.1 = [] ∨ (∀ step ∈ file.1, IsName step) ∧ o.Kept [] file.1 := by
  rcases walk_cases root noLink nodes with ⟨node, -, eq⟩ | eq | ⟨entries, levels, proper, eq⟩
  · rw [eq] at h
    exact .inl (congrArg Prod.fst (List.mem_singleton.mp h))
  · rw [eq] at h
    cases h
  · rw [eq] at h
    obtain ⟨-, e, -, rest, way, names, kept⟩ := exists_way root proper h
    rw [way]
    exact .inr ⟨names, kept⟩

end WalkOptions

variable {disk : Disk} {path key : String} {engine : Engine} {o : LoadOptions} {l : LoadedFiles}

/-- The path of a file that was loaded is a way on which nothing was left out, unless the file is
where loading starts. -/
theorem kept_of_mem_keys (proper : disk.top.Proper) (loaded : load disk path o engine = .ok l)
    (mem : key ∈ l.files.keys) :
    segments key = [""] ∨ ∃ walk : WalkOptions, walk.overrides = o.overrides engine ∧
      walk.Kept [] (segments key) := by
  cases h : disk.resolve? path with
  | none =>
    rw [load, h] at loaded
    cases loaded
  | some start =>
    obtain ⟨text, entry⟩ := SortedMap.mem_keys_iff_get?.mp mem
    obtain ⟨file, found, rfl, -⟩ := ((accounts_load proper h loaded).files key text).mp entry
    unfold filesAt at found
    split at found
    next => cases found
    next =>
      rcases WalkOptions.exists_kept proper (Disk.resolve?_not_link h) found with start | ⟨names, kept⟩
      · exact .inl (by rw [start]; rfl)
      · have plain := segments_joined kept.ne_nil fun name mem => (names name mem).plain
        exact .inr ⟨_, rfl, by rwa [plain]⟩

theorem load_congr {patterns : List String}
    (h : o.overrides engine = { o with ignorePatterns := patterns }.overrides engine) (disk : Disk)
    (path : String) :
    load disk path o engine = load disk path { o with ignorePatterns := patterns } engine := by
  have wants (file : String) : o.wants file = { o with ignorePatterns := patterns }.wants file := by
    simp only [LoadOptions.wants, LoadOptions.isWanted, LoadOptions.wantedExtensions]
  have walk (root : FileNode) (start : List String) :
      walkAt root start o engine = walkAt root start { o with ignorePatterns := patterns } engine := by
    rw [walkAt, walkAt, h]
  unfold load entriesAt
  simp only [walk, wants]

section Patterns

variable {pattern : String} {patterns : List String}

/-- The rules of those patterns that can be read. -/
def rulesOf (patterns : List String) : List IgnoreRule :=
  patterns.filterMap fun pattern => IgnoreRule.ofLine? false ('!' :: pattern.toList)

/-- Whether the rules of some patterns can be run together. -/
def CanBuild (engine : Engine) (patterns : List String) : Prop :=
  engine ((rulesOf patterns).map (·.glob)) = true

instance (engine : Engine) (patterns : List String) : Decidable (CanBuild engine patterns) :=
  inferInstanceAs (Decidable (_ = true))

theorem overrides_of_canBuild (h : CanBuild engine o.ignorePatterns) :
    o.overrides engine = rulesOf o.ignorePatterns := by
  rw [LoadOptions.overrides, IgnoreRule.ofLines, List.filterMap_map]
  exact if_pos h

theorem overrides_of_not_canBuild (h : ¬CanBuild engine o.ignorePatterns) :
    o.overrides engine = [] := by
  rw [LoadOptions.overrides, IgnoreRule.ofLines, List.filterMap_map]
  exact if_neg h

theorem overrides_nil : ({ o with ignorePatterns := [] } : LoadOptions).overrides engine = [] := by
  rw [LoadOptions.overrides, IgnoreRule.ofLines]
  exact ite_self _

/-- With patterns that cannot be run together, none counts. -/
theorem load_of_not_canBuild (h : ¬CanBuild engine patterns) (o : LoadOptions) (disk : Disk)
    (path : String) : load disk path { o with ignorePatterns := patterns } engine =
      load disk path { o with ignorePatterns := [] } engine := by
  have dropped : ({ o with ignorePatterns := patterns } : LoadOptions).overrides engine = [] :=
    overrides_of_not_canBuild h
  exact load_congr (dropped.trans overrides_nil.symm) disk path

/-- Whether a pattern has a form that can be run, if it can be read. -/
def CanRun (pattern : String) : Prop :=
  ∀ r, IgnoreRule.ofLine? false ('!' :: pattern.toList) = some r → r.glob.isRunnable = true

instance (pattern : String) : Decidable (CanRun pattern) :=
  decidable_of_iff ((IgnoreRule.ofLine? false ('!' :: pattern.toList)).all (·.glob.isRunnable))
    (Option.all_eq_true _ _)

theorem canBuild_standard_iff :
    CanBuild .standard patterns ↔ ∀ pattern ∈ patterns, CanRun pattern := by
  rw [CanBuild, Engine.standard, List.all_map, List.all_eq_true]
  simp only [CanRun, rulesOf, List.mem_filterMap]
  grind

theorem not_canRun_nested : ¬CanRun (String.ofList (nestedText 300)) := by
  intro run
  obtain ⟨r, read, stuck⟩ := @ofLine?_nested 300 (by decide)
  exact Bool.false_ne_true (stuck.symm.trans (run r (by rw [String.toList_ofList, read])))

end Patterns

end CodeSurvey.Loading

namespace CodeSurvey.ScannerSettings

open Loading Paths

variable {s : ScannerSettings} {name pattern : String}

def ignoredFolders : List String := ["node_modules", "dist", "build", "coverage", ".next", "target"]

theorem alwaysIgnored_eq : alwaysIgnored = ignoredFolders.map (· ++ "/") := by decide

theorem plain_ignoredFolders : ∀ name ∈ ignoredFolders, name.toList ≠ [] ∧
    name.toList.all isQuiet = true ∧ name.toList.all isPlain = true := by
  decide

theorem ofLine?_ignoredFolder (mem : name ∈ ignoredFolders) :
    IgnoreRule.ofLine? false ('!' :: (name ++ "/").toList) = some (.folder name) := by
  obtain ⟨ne, quiet, plain⟩ := plain_ignoredFolders name mem
  rw [String.toList_append, IgnoreRule.folder, Text.bytes_eq_flatMap]
  exact ofLine?_name ne (List.all_eq_true.mp quiet) (List.all_eq_true.mp plain)

theorem mem_ignorePatterns :
    pattern ∈ s.ignorePatterns ↔ pattern ∈ s.ignore ∨ pattern ∈ alwaysIgnored := by
  by_cases h : pattern ∈ s.ignore <;> simp [ignorePatterns, h]

theorem folder_mem_rules (mem : name ∈ ignoredFolders) : .folder name ∈ rulesOf s.ignorePatterns := by
  have always : name ++ "/" ∈ alwaysIgnored :=
    alwaysIgnored_eq ▸ List.mem_map_of_mem mem
  exact List.mem_filterMap.mpr
    ⟨_, mem_ignorePatterns.mpr (.inr always), ofLine?_ignoredFolder mem⟩

theorem canRun_alwaysIgnored (mem : pattern ∈ alwaysIgnored) : CanRun pattern := by
  rw [alwaysIgnored_eq] at mem
  obtain ⟨name, folder, rfl⟩ := List.mem_map.mp mem
  intro r read
  obtain rfl := Option.some.inj (read.symm.trans (ofLine?_ignoredFolder folder))
  exact isRunnable_folder name

theorem canBuild_standard_iff :
    CanBuild .standard s.ignorePatterns ↔ ∀ pattern ∈ s.ignore, CanRun pattern := by
  rw [Loading.canBuild_standard_iff]
  constructor
  · exact fun all pattern mem => all pattern (mem_ignorePatterns.mpr (.inl mem))
  · intro own pattern mem
    exact (mem_ignorePatterns.mp mem).elim (own pattern) canRun_alwaysIgnored

theorem ignorePatterns_of_loadOptions? {o : LoadOptions} (h : s.loadOptions? = some o) :
    o.ignorePatterns = s.ignorePatterns := by
  obtain ⟨limit, -, rfl⟩ := Option.map_eq_some_iff.mp h
  rfl

/-- No file of version control is loaded, and no file below a folder that is always left out as long
as all patterns can be run together. If they cannot, no pattern counts. -/
theorem load_leaves_out {disk : Disk} {o : LoadOptions} (proper : disk.top.Proper) (path : String)
    (engine : Engine) (given : s.loadOptions? = some o) :
    (∀ l, load disk path o engine = .ok l → ∀ key ∈ l.files.keys, ".git" ∉ segments key) ∧
    (CanBuild engine s.ignorePatterns → ∀ l, load disk path o engine = .ok l →
      ∀ key ∈ l.files.keys, ∀ name ∈ ignoredFolders, name ∉ (segments key).dropLast) ∧
    (¬CanBuild engine s.ignorePatterns →
      load disk path o engine = load disk path { o with ignorePatterns := [] } engine) := by
  have patterns := ignorePatterns_of_loadOptions? given
  rw [← patterns]
  refine ⟨fun l loaded key mem => ?_, fun h l loaded key mem name folder => ?_, fun h => ?_⟩
  · rcases kept_of_mem_keys proper loaded mem with start | ⟨walk, -, kept⟩
    · rw [start]
      decide
    · exact kept.versionControl_notMem
  · rcases kept_of_mem_keys proper loaded mem with start | ⟨walk, overrides, kept⟩
    · rw [start]
      exact List.not_mem_nil
    · refine kept.folder_notMem ?_
      rw [overrides, overrides_of_canBuild h, patterns]
      exact folder_mem_rules folder
  · exact load_of_not_canBuild h o disk path

def sampleProject : FileNode := .folder [
  (".gitignore", .file "!dist/\n!node_modules/\n".toUTF8),
  (".git", .folder [("a.js", .file ⟨#[]⟩)]),
  ("dist", .folder [("b.js", .file ⟨#[]⟩)]),
  ("src", .folder [("node_modules", .folder [("c.js", .file ⟨#[]⟩)]), ("d.js", .file ⟨#[]⟩)])]

theorem sampleProject_proper : sampleProject.Proper := by
  have file (name : String) (h : IsName name) : (FileNode.folder [(name, .file ⟨#[]⟩)]).Proper :=
    .folder (List.nodup_singleton _) (by simpa using h) (by simp [FileNode.Proper.file])
  refine .folder (by decide) (by decide) ?_
  simp only [List.forall_mem_cons]
  refine ⟨.file _, file _ (by decide), file _ (by decide), .folder (by decide) (by decide) ?_, nofun⟩
  simp only [List.forall_mem_cons]
  exact ⟨file _ (by decide), .file _, nofun⟩

def sampleSettings : ScannerSettings := { ignore := ["!src", "a["], includeHidden := true }

theorem sampleSettings_canBuild : CanBuild .standard sampleSettings.ignorePatterns :=
  canBuild_standard_iff.mpr (by decide +kernel)

def nestedSettings : ScannerSettings := { ignore := [String.ofList (nestedText 300)] }

theorem nestedSettings_stuck : ¬CanBuild .standard nestedSettings.ignorePatterns :=
  fun h => not_canRun_nested (canBuild_standard_iff.mp h _ List.mem_cons_self)

theorem keys_sampleProject :
    (load sampleProject.disk "."
        { ignorePatterns := sampleSettings.ignorePatterns, includeHidden := true }).toOption.map
      (·.files.keys) = some ["src/d.js"] ∧
    (load sampleProject.disk "." {}).toOption.map (·.files.keys) =
      some ["dist/b.js", "src/d.js", "src/node_modules/c.js"] := by
  decide +kernel

theorem load_leaves_out_sample :
    sampleProject.disk.top.Proper ∧ CanBuild .standard sampleSettings.ignorePatterns ∧
      ¬CanBuild .standard nestedSettings.ignorePatterns ∧
      (∃ o l, sampleSettings.loadOptions? = some o ∧ load sampleProject.disk "." o = .ok l ∧
        l.files.keys = ["src/d.js"] ∧
        (∀ key ∈ l.files.keys, ".git" ∉ segments key) ∧
        ∀ key ∈ l.files.keys, ∀ name ∈ ignoredFolders, name ∉ (segments key).dropLast) ∧
      ∃ o, nestedSettings.loadOptions? = some o ∧
        load sampleProject.disk "." o = load sampleProject.disk "." { o with ignorePatterns := [] } := by
  let o : LoadOptions := { ignorePatterns := sampleSettings.ignorePatterns, includeHidden := true }
  have given : sampleSettings.loadOptions? = some o := rfl
  obtain ⟨l, ok, keys⟩ := exists_load keys_sampleProject.1
  have proper : sampleProject.disk.top.Proper := sampleProject_proper
  obtain ⟨plain, folders, -⟩ := load_leaves_out proper "." .standard given
  have givenNested : nestedSettings.loadOptions? =
      some { ignorePatterns := nestedSettings.ignorePatterns } := rfl
  have stuck := load_leaves_out proper "." .standard givenNested
  exact ⟨sampleProject_proper, sampleSettings_canBuild, nestedSettings_stuck,
    ⟨o, l, given, ok, keys, plain l ok, folders sampleSettings_canBuild l ok⟩,
    _, givenNested, stuck.2.2 nestedSettings_stuck⟩

/-- With a pattern that cannot be run, files are loaded from folders that are always left out. -/
theorem load_nestedSettings :
    sampleProject.Proper ∧ ∃ o l, nestedSettings.loadOptions? = some o ∧
      load sampleProject.disk "." o = .ok l ∧
      ∃ key ∈ l.files.keys, ∃ name ∈ ignoredFolders, name ∈ (segments key).dropLast := by
  obtain ⟨l, ok, keys⟩ := exists_load keys_sampleProject.2
  have dropped := load_of_not_canBuild nestedSettings_stuck {} sampleProject.disk "."
  have given : nestedSettings.loadOptions? =
      some { ignorePatterns := nestedSettings.ignorePatterns } := rfl
  refine ⟨sampleProject_proper, _, l, given, dropped.trans ok, "dist/b.js", ?_, "dist", by decide,
    by decide⟩
  rw [keys]
  decide

end CodeSurvey.ScannerSettings
