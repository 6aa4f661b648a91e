import CodeSurvey.Loading.Load
import CodeSurvey.Loading.Workers
import CodeSurvey.Proofs.Arrangement
import CodeSurvey.Proofs.Walk
import CodeSurvey.Proofs.Workers

namespace CodeSurvey.Loading

open Paths

variable {disk : Disk} {root : FileNode} {path : String} {start : List String} {o : LoadOptions}
  {engine : Engine}

theorem fromUTF8?_eq_some_iff {content : ByteArray} {text : String} :
    String.fromUTF8? content = some text ↔ text.toUTF8 = content := by
  rw [String.toUTF8_eq_toByteArray, String.fromUTF8?]
  constructor
  · intro h
    split at h
    next valid => exact Option.some.inj h ▸ rfl
    next => cases h
  · rintro rfl
    exact dif_pos text.isValidUTF8

/-- The files at a path, by the names that lead there. A dash stands for no path. -/
def filesAt (root : FileNode) (path : String) (start : List String) (o : LoadOptions)
    (engine : Engine) : List (List String × FileNode) :=
  if path = "-" then [] else (walkAt root start o engine).walk (countNodes root)

theorem entriesAt_eq (root : FileNode) (path : String) (start : List String) (o : LoadOptions)
    (engine : Engine) :
    entriesAt root path start o engine =
      (filesAt root path start o engine).map fun file => (walked path file.1, file.2) := by
  unfold entriesAt filesAt
  split <;> rfl

theorem finds_filesAt (proper : disk.top.Proper) (h : disk.resolve? path = some start)
    (o : LoadOptions) (engine : Engine) :
    WalkOptions.Finds (filesAt disk.top path start o engine) := by
  unfold filesAt
  split
  next => exact ⟨nofun, nofun, List.nodup_nil⟩
  next => exact WalkOptions.finds_walk proper (Disk.resolve?_not_link h) _

/-- The name by which a file is judged: its own, or that of the path where the walk starts. -/
def nameOf (path : String) (file : List String) : String :=
  match file.getLast? with
  | some name => name
  | none => (fileName? path).getD ""

theorem wants_walked {names : List String} (named : ∀ name ∈ names, IsName name) (o : LoadOptions)
    (path : String) :
    o.wants (walked path names) = o.isWanted (nameOf path names) := by
  rw [LoadOptions.wants, fileName?_walked named, nameOf]
  cases names.getLast? <;> rfl

def LoadOptions.Allows (o : LoadOptions) (size : Nat) : Prop :=
  ∀ limit, o.maxFileSize = some limit → size ≤ limit

/-- Whether a file is loaded as a text: its name is wanted, its size allowed, and its bytes are those
of the text, with no zero among them. -/
def LoadOptions.Takes (o : LoadOptions) (name : String) (node : FileNode) (text : String) : Prop :=
  o.isWanted name = true ∧ ∃ content, node = .file content ∧ o.Allows content.size ∧
    0 ∉ content.toList ∧ text.toUTF8 = content

def LoadOptions.Misses (o : LoadOptions) (name : String) (node : FileNode) : Prop :=
  o.isWanted name = true ∧ ∃ size, node = .unreadable size ∧ o.Allows size

theorem isAbove_iff {size : Nat} : isAbove o.maxFileSize size = true ↔ ¬o.Allows size := by
  unfold isAbove LoadOptions.Allows
  cases o.maxFileSize <;> simp

theorem readFile_eq_loaded_iff {own : String} {node : FileNode} {key text : String} :
    readFile o.maxFileSize own node = .loaded key text ↔
      own = key ∧ ∃ content, node = .file content ∧ o.Allows content.size ∧
        0 ∉ content.toList ∧ text.toUTF8 = content := by
  cases node with
  | file content =>
    simp only [readFile, FileNode.file.injEq, exists_eq_left', ← fromUTF8?_eq_some_iff]
    split
    next refused =>
      rw [Bool.or_eq_true, isAbove_iff, List.contains_iff_mem] at refused
      refine iff_of_false nofun fun ⟨_, allowed, plain, _⟩ => ?_
      exact refused.elim (· allowed) plain
    next taken =>
      rw [Bool.or_eq_true, isAbove_iff, List.contains_iff_mem, not_or, not_not] at taken
      cases String.fromUTF8? content <;> simp [taken.1, taken.2]
  | unreadable size => cases h : isAbove o.maxFileSize size <;> simp [readFile, h]
  | folder | link => simp [readFile]

theorem readFile_eq_failed_iff {own : String} {node : FileNode} :
    readFile o.maxFileSize own node = .failed ↔
      ∃ size, node = .unreadable size ∧ o.Allows size := by
  cases node with
  | file content =>
    rw [readFile]
    split
    next => simp
    next => split <;> simp
  | unreadable size =>
    have within := @isAbove_iff o size
    cases h : isAbove o.maxFileSize size <;> simp_all [readFile]
  | folder | link => simp [readFile]

/-- What becomes of a file that a walk finds. -/
def LoadOptions.fate (o : LoadOptions) (path : String) (file : List String × FileNode) : Outcome :=
  if o.isWanted (nameOf path file.1) then readFile o.maxFileSize (joined file.1) file.2
  else .skipped

variable {file : List String × FileNode} {found : List (List String × FileNode)}

theorem fate_eq_loaded_iff {key text : String} : o.fate path file = .loaded key text ↔
    joined file.1 = key ∧ o.Takes (nameOf path file.1) file.2 text := by
  unfold LoadOptions.fate LoadOptions.Takes
  cases o.isWanted (nameOf path file.1) with
  | true => simpa using readFile_eq_loaded_iff
  | false => simp

theorem fate_eq_failed_iff :
    o.fate path file = .failed ↔ o.Misses (nameOf path file.1) file.2 := by
  unfold LoadOptions.fate LoadOptions.Misses
  cases o.isWanted (nameOf path file.1) with
  | true => simpa using readFile_eq_failed_iff
  | false => simp

theorem fate_eq_skipped_iff : o.fate path file = .skipped ↔
    (¬∃ text, o.Takes (nameOf path file.1) file.2 text) ∧
      ¬o.Misses (nameOf path file.1) file.2 := by
  rw [← fate_eq_failed_iff]
  have taken (text : String) : o.fate path file = .loaded (joined file.1) text ↔
      o.Takes (nameOf path file.1) file.2 text :=
    fate_eq_loaded_iff.trans (and_iff_right rfl)
  simp only [← taken]
  cases hf : o.fate path file with
  | loaded key text =>
    obtain ⟨rfl, -⟩ := fate_eq_loaded_iff.mp hf
    simp
  | skipped => simp
  | failed => simp

theorem foldl_add_fate (found : List (List String × FileNode)) (l : LoadedFiles) :
    ((found.filter fun file => o.isWanted (nameOf path file.1)).map fun file =>
        readFile o.maxFileSize (joined file.1) file.2).foldl LoadedFiles.add
      { l with skipped := l.skipped +
          (found.filter fun file => !o.isWanted (nameOf path file.1)).length } =
      (found.map (o.fate path)).foldl LoadedFiles.add l := by
  induction found generalizing l with
  | nil => rfl
  | cons file found ih =>
    rw [List.map_cons, List.foldl_cons, ← ih]
    cases h : o.isWanted (nameOf path file.1) with
    | true =>
      have add (n : Nat) (outcome : Outcome) :
          ({ l with skipped := l.skipped + n } : LoadedFiles).add outcome =
            { l.add outcome with skipped := (l.add outcome).skipped + n } := by
        cases outcome <;> simp [LoadedFiles.add, Nat.add_right_comm]
      simp [h, LoadOptions.fate, add]
    | false => simp [h, LoadOptions.fate, LoadedFiles.add, Nat.add_assoc, Nat.add_comm 1]

def Outcome.loaded? : Outcome → Option (String × String)
  | loaded path content => some (path, content)
  | skipped | failed => none

@[simp] theorem Outcome.loaded?_loaded (path content : String) :
    (loaded path content).loaded? = some (path, content) := rfl

@[simp] theorem Outcome.loaded?_skipped : skipped.loaded? = none := rfl

@[simp] theorem Outcome.loaded?_failed : failed.loaded? = none := rfl

theorem foldl_add (outcomes : List Outcome) (l : LoadedFiles) :
    outcomes.foldl LoadedFiles.add l =
      { files := (outcomes.filterMap (·.loaded?)).foldl (fun m (key, text) => m.insert key text)
          l.files
        skipped := l.skipped + outcomes.count .skipped
        errors := l.errors + outcomes.count .failed
        total := l.total } := by
  induction outcomes generalizing l with
  | nil => rfl
  | cons outcome outcomes ih =>
    rw [List.foldl_cons, ih]
    cases outcome with
    | loaded key text => simp [LoadedFiles.add]
    | skipped => simp [LoadedFiles.add, List.filterMap_cons, Nat.add_assoc, Nat.add_comm 1]
    | failed => simp [LoadedFiles.add, List.filterMap_cons, Nat.add_assoc, Nat.add_comm 1]

theorem length_outcomes (outcomes : List Outcome) :
    (outcomes.filterMap (·.loaded?)).length + outcomes.count .skipped + outcomes.count .failed =
      outcomes.length := by
  induction outcomes with
  | nil => rfl
  | cons outcome outcomes ih =>
    cases outcome <;> simp [List.filterMap_cons] <;> omega

theorem partition_entries (named : ∀ file ∈ found, ∀ name ∈ file.1, IsName name) :
    (found.map fun file => (walked path file.1, file.2)).partition (fun file => o.wants file.1) =
      ((found.filter fun file => o.isWanted (nameOf path file.1)).map fun file =>
          (walked path file.1, file.2),
        (found.filter fun file => !o.isWanted (nameOf path file.1)).map fun file =>
          (walked path file.1, file.2)) := by
  rw [List.partition_eq_filter_filter, List.filter_map, List.filter_map]
  have wanted := List.filter_congr fun file mem => wants_walked (named file mem) o path
  have others := List.filter_congr fun file mem =>
    congrArg Bool.not (wants_walked (named file mem) o path)
  simp only [Function.comp_def, wanted, others]

theorem map_readFile_entries (named : ∀ file ∈ found, ∀ name ∈ file.1, IsName name) :
    ((found.map fun file => (walked path file.1, file.2)).map fun file =>
        readFile o.maxFileSize (relative path file.1) file.2) =
      found.map fun file => readFile o.maxFileSize (joined file.1) file.2 := by
  rw [List.map_map]
  exact List.map_congr_left fun file mem => by
    rw [Function.comp_apply, relative_walked (named file mem)]

/-- A path is loaded as what becomes of each file below it, under the names that lead there. -/
theorem load_eq (proper : disk.top.Proper) (h : disk.resolve? path = some start) (o : LoadOptions)
    (engine : Engine) :
    load disk path o engine =
      .ok (((filesAt disk.top path start o engine).map (o.fate path)).foldl LoadedFiles.add
        { total := (filesAt disk.top path start o engine).countP fun file =>
            o.isWanted (nameOf path file.1) }) := by
  have named := (finds_filesAt proper h o engine).names
  unfold load
  rw [h]
  dsimp only
  rw [entriesAt_eq, partition_entries named]
  dsimp only
  rw [map_readFile_entries fun file mem => named file (List.mem_of_mem_filter mem),
    ← foldl_add_fate, List.countP_eq_length_filter, List.length_map, List.length_map, Nat.zero_add]

section Accounts

def LoadOptions.read (o : LoadOptions) (path : String) (file : String × FileNode) : Outcome :=
  readFile o.maxFileSize (relative path file.1) file.2

def readers (o : LoadOptions) (found : List (String × FileNode)) :
    Workers (String × FileNode) Outcome :=
  .start (found.filter fun file => o.wants file.1)

open Classical in
/-- What is said of the files that a walk found when all are loaded: each is there as a text, was
skipped or could not be read, and the reports count those with names that are wanted. -/
structure LoadedFiles.Accounts (l : LoadedFiles) (o : LoadOptions) (path : String)
    (found : List (List String × FileNode)) : Prop where
  finds : WalkOptions.Finds found
  files : ∀ key text, l.files.get? key = some text ↔
    ∃ file ∈ found, joined file.1 = key ∧ o.Takes (nameOf path file.1) file.2 text
  skipped : l.skipped = found.countP fun file =>
    (¬∃ text, o.Takes (nameOf path file.1) file.2 text) ∧ ¬o.Misses (nameOf path file.1) file.2
  errors : l.errors = found.countP fun file => o.Misses (nameOf path file.1) file.2
  balance : l.files.size + l.skipped + l.errors = found.length
  total : l.total = found.countP fun file => o.isWanted (nameOf path file.1)

theorem keys_sublist (o : LoadOptions) (path : String) (found : List (List String × FileNode)) :
    (((found.map (o.fate path)).filterMap (·.loaded?)).map (·.1)).Sublist
      (found.map fun file => joined file.1) := by
  induction found with
  | nil => exact List.nil_sublist _
  | cons file found ih =>
    rw [List.map_cons, List.map_cons, List.filterMap_cons]
    cases h : o.fate path file with
    | loaded key text =>
      obtain ⟨rfl, -⟩ := fate_eq_loaded_iff.mp h
      exact ih.cons_cons _
    | skipped => exact ih.cons _
    | failed => exact ih.cons _

theorem count_fates (outcome : Outcome) :
    (found.map (o.fate path)).count outcome =
      found.countP fun file => o.fate path file = outcome := by
  rw [List.count, List.countP_map]
  exact List.countP_congr fun file _ => by simp

theorem accounts_fates (o : LoadOptions) (path : String) (finds : WalkOptions.Finds found)
    (total : Nat)
    (ht : total = found.countP fun file => o.isWanted (nameOf path file.1)) :
    ((found.map (o.fate path)).foldl LoadedFiles.add { total }).Accounts o path found := by
  have perm := SortedMap.entries_ofList_perm (finds.distinct.sublist (keys_sublist o path found))
  have length := length_outcomes (found.map (o.fate path))
  rw [List.length_map] at length
  rw [foldl_add]
  refine ⟨finds, fun key text => ?_, ?_, ?_, ?_, ht⟩
  · rw [SortedMap.get?_eq_some_iff]
    refine perm.mem_iff.trans ?_
    simp only [← fate_eq_loaded_iff, List.mem_filterMap, List.mem_map]
    constructor
    · rintro ⟨_, ⟨file, mem, rfl⟩, entry⟩
      cases hf : o.fate path file with
      | loaded key' text' =>
        obtain ⟨rfl, rfl⟩ := Prod.ext_iff.mp (Option.some.inj (hf ▸ entry :))
        exact ⟨file, mem, hf⟩
      | skipped => rw [hf] at entry; cases entry
      | failed => rw [hf] at entry; cases entry
    · rintro ⟨file, mem, hf⟩
      exact ⟨_, ⟨file, mem, rfl⟩, by rw [hf]; rfl⟩
  · refine ((Nat.zero_add _).trans (count_fates _)).trans (List.countP_congr fun file _ => ?_)
    simp only [decide_eq_true_iff, fate_eq_skipped_iff]
  · refine ((Nat.zero_add _).trans (count_fates _)).trans (List.countP_congr fun file _ => ?_)
    simp only [decide_eq_true_iff, fate_eq_failed_iff]
  · rw [Nat.zero_add, Nat.zero_add, ← length, ← perm.length_eq]
    rfl

/-- What is said of workers that read files in any order: they come to an end, with the same result
and the same reports. -/
structure LoadedFiles.ReadBy (l : LoadedFiles) (o : LoadOptions) (path : String)
    (found : List (String × FileNode)) : Prop where
  ends : ∀ schedule w, (readers o found).run (o.read path) schedule = some w →
    schedule.length ≤ 2 * l.total ∧ ∃ more w', w.run (o.read path) more = some w' ∧ w'.isDone = true
  result : ∀ schedule w, (readers o found).run (o.read path) schedule = some w → w.isDone = true →
    w.results.foldl LoadedFiles.add
        { skipped := (found.filter fun file => !o.wants file.1).length, total := l.total } = l ∧
      w.reports.mergeSort (·.1 ≤ ·.1) = l.progress

theorem total_foldl_add (outcomes : List Outcome) (l : LoadedFiles) :
    (outcomes.foldl LoadedFiles.add l).total = l.total := by
  rw [foldl_add]

theorem read_load (h : disk.resolve? path = some start) {l : LoadedFiles}
    (loaded : load disk path o engine = .ok l) :
    l.ReadBy o path (entriesAt disk.top path start o engine) := by
  have here : (((entriesAt disk.top path start o engine).filter fun file => o.wants file.1).map
      (o.read path)).foldl LoadedFiles.add
        { skipped := ((entriesAt disk.top path start o engine).filter
            fun file => !o.wants file.1).length
          total := ((entriesAt disk.top path start o engine).filter
            fun file => o.wants file.1).length } = l := by
    rw [load, h] at loaded
    dsimp only at loaded
    rw [List.partition_eq_filter_filter] at loaded
    exact Except.ok.inj loaded
  have total := congrArg LoadedFiles.total here
  rw [total_foldl_add] at total
  dsimp only at total
  refine ⟨fun schedule w ran => ⟨?_, Workers.exists_run_done (o.read path) w⟩,
    fun schedule w ran done => ?_⟩
  · have steps := Workers.length_add_stepsLeft ran
    rw [readers, Workers.stepsLeft_start] at steps
    omega
  · obtain ⟨results, reports⟩ := Workers.run_done ran done
    rw [total] at reports here
    exact ⟨results ▸ here, reports⟩

theorem accounts_load (proper : disk.top.Proper) (h : disk.resolve? path = some start)
    {l : LoadedFiles} (loaded : load disk path o engine = .ok l) :
    l.Accounts o path (filesAt disk.top path start o engine) := by
  rw [load_eq proper h o engine] at loaded
  exact Except.ok.inj loaded ▸ accounts_fates o path (finds_filesAt proper h o engine) _ rfl

/-- A place that is not there is reported. Otherwise each file that is found is accounted for, also
by workers that read in any order. -/
theorem load_accounts (proper : disk.top.Proper) (path : String) (o : LoadOptions)
    (engine : Engine) :
    (disk.resolve? path = none ∧ load disk path o engine = .error (.notFound path)) ∨
      ∃ start l, disk.resolve? path = some start ∧ load disk path o engine = .ok l ∧
        l.Accounts o path (filesAt disk.top path start o engine) ∧
        l.ReadBy o path (entriesAt disk.top path start o engine) := by
  cases h : disk.resolve? path with
  | none => exact .inl ⟨rfl, by rw [load, h]⟩
  | some start =>
    have loaded := load_eq proper h o engine
    exact .inr ⟨start, _, rfl, loaded, accounts_load proper h loaded, read_load h loaded⟩

theorem exists_load_of_map {α : Type} {f : LoadedFiles → α} {a : α}
    (h : (load disk path o engine).toOption.map f = some a) :
    ∃ l, load disk path o engine = .ok l ∧ f l = a := by
  cases ok : load disk path o engine with
  | error cause =>
    rw [ok] at h
    cases h
  | ok l =>
    rw [ok] at h
    exact ⟨l, rfl, Option.some.inj h⟩

theorem exists_load {keys : List String}
    (h : (load disk path o engine).toOption.map (·.files.keys) = some keys) :
    ∃ l, load disk path o engine = .ok l ∧ l.files.keys = keys :=
  exists_load_of_map h

def sampleFolder : FileNode := .folder [
  ("a.js", .file ⟨#[120]⟩),
  ("b.js", .file ⟨#[120, 0]⟩),
  ("c.js", .unreadable 1),
  ("d.exe", .file ⟨#[120]⟩),
  ("e", .folder [("a.js", .file ⟨#[121, 10]⟩), ("f.js", .file ⟨#[255]⟩)])]

theorem sampleFolder_proper : sampleFolder.Proper := by
  have inner : (FileNode.folder [("a.js", .file ⟨#[121, 10]⟩), ("f.js", .file ⟨#[255]⟩)]).Proper :=
    .folder (by decide) (by decide) (by simp [FileNode.Proper.file])
  refine .folder (by decide) (by decide) ?_
  simp only [List.forall_mem_cons]
  exact ⟨.file _, .file _, .unreadable _, .file _, inner, nofun⟩

theorem load_accounts_sample :
    sampleFolder.Proper ∧ ∃ l, load sampleFolder.disk "." {} = .ok l ∧
      l.Accounts {} "." (filesAt sampleFolder "." [] {} .standard) ∧
      l.ReadBy {} "." (entriesAt sampleFolder "." [] {} .standard) ∧
      (l.files.entries, l.skipped, l.errors, l.total) =
        ([("a.js", "x"), ("e/a.js", "y\n")], 3, 1, 5) := by
  have here : sampleFolder.disk.resolve? "." = some [] := by decide +kernel
  have counts : (load sampleFolder.disk "." {}).toOption.map
      (fun l => (l.files.entries, l.skipped, l.errors, l.total)) =
        some ([("a.js", "x"), ("e/a.js", "y\n")], 3, 1, 5) := by decide +kernel
  have proper : sampleFolder.disk.top.Proper := sampleFolder_proper
  refine ⟨proper, ?_⟩
  rcases load_accounts proper "." {} .standard with
    ⟨none, -⟩ | ⟨start, l, there, ok, accounts, read⟩
  · rw [here] at none
    cases none
  · obtain rfl := Option.some.inj (here.symm.trans there)
    rw [ok] at counts
    exact ⟨l, ok, accounts, read, Option.some.inj counts⟩

end Accounts

end CodeSurvey.Loading
