import CodeSurvey.Proofs.Loading
import CodeSurvey.Proofs.ReadTree

namespace CodeSurvey.Paths

open Trie

variable {p parent : List String} {last : Bool} {paths : List String}

/-- Whether the lines of a trie, in any folder, are those of the beginnings of its paths. -/
def LinesBegin (t : Trie) : Prop :=
  ∀ parent last p, p ∈ (t.lines parent last).map (·.path) ↔
    ∃ begin below, begin ≠ [] ∧ begin ++ below ∈ t.paths ∧ p = parent ++ begin

theorem mem_path_linesAll {forest : List Trie} (each : ∀ t ∈ forest, LinesBegin t) :
    p ∈ (linesAll parent forest).map (·.path) ↔
      ∃ begin below, begin ≠ [] ∧ begin ++ below ∈ pathsAll forest ∧ p = parent ++ begin := by
  induction forest with
  | nil => simp [linesAll, pathsAll]
  | cons t forest ih =>
    obtain ⟨here, each⟩ := List.forall_mem_cons.mp each
    rw [linesAll, List.map_append, List.mem_append, here, ih each, pathsAll]
    simp only [List.mem_append]
    constructor
    · rintro (⟨begin, below, ne, mem, rfl⟩ | ⟨begin, below, ne, mem, rfl⟩)
      · exact ⟨begin, below, ne, .inl mem, rfl⟩
      · exact ⟨begin, below, ne, .inr mem, rfl⟩
    · rintro ⟨begin, below, ne, mem | mem, rfl⟩
      · exact .inl ⟨begin, below, ne, mem, rfl⟩
      · exact .inr ⟨begin, below, ne, mem, rfl⟩

theorem linesBegin (t : Trie) : LinesBegin t := by
  induction t using Trie.induction with
  | node name children ih =>
    intro parent last p
    rw [Trie.lines, List.map_cons, List.mem_cons, mem_path_linesAll ih, TreeLine.path]
    simp only [mem_paths, children_node, name_node]
    constructor
    · rintro (rfl | ⟨begin, below, ne, mem, rfl⟩)
      · by_cases leaf : children = []
        · exact ⟨[name], [], List.cons_ne_nil _ _, .inl ⟨leaf, rfl⟩, rfl⟩
        · obtain ⟨path, rest, eq⟩ := List.exists_cons_of_ne_nil (pathsAll_ne_nil leaf)
          have mem : path ∈ pathsAll children := eq ▸ List.mem_cons_self
          exact ⟨[name], path, List.cons_ne_nil _ _, .inr ⟨leaf, path, mem, rfl⟩, rfl⟩
      · have inner : children ≠ [] := by
          rintro rfl
          cases mem
        exact ⟨name :: begin, below, List.cons_ne_nil _ _, .inr ⟨inner, _, mem, rfl⟩, by simp⟩
    · rintro ⟨begin, below, ne, path, rfl⟩
      obtain ⟨first, begin, rfl⟩ := List.exists_cons_of_ne_nil ne
      rcases path with ⟨-, eq⟩ | ⟨inner, q, mem, eq⟩
      · obtain ⟨rfl, tail⟩ := List.cons.inj eq
        obtain ⟨rfl, -⟩ := List.append_eq_nil_iff.mp tail
        exact .inl rfl
      · obtain ⟨rfl, tail⟩ := List.cons.inj eq
        by_cases whole : begin = []
        · exact .inl (by rw [whole])
        · refine .inr ⟨begin, below, whole, ?_, by simp⟩
          have same : begin ++ below = q := tail
          rwa [same]

/-- Whether the lines of a trie, in any folder, name different things. -/
def LinesDiffer (t : Trie) : Prop := ∀ parent last, ((t.lines parent last).map (·.path)).Nodup

theorem nodup_linesAll {forest : List Trie} (distinct : (forest.map Trie.name).Nodup)
    (each : ∀ t ∈ forest, LinesDiffer t) (parent : List String) :
    ((linesAll parent forest).map (·.path)).Nodup := by
  induction forest with
  | nil => exact List.nodup_nil
  | cons t forest ih =>
    obtain ⟨fresh, distinct⟩ := List.nodup_cons.mp distinct
    obtain ⟨here, each⟩ := List.forall_mem_cons.mp each
    rw [linesAll, List.map_append]
    refine (here parent _).append (ih distinct each) ?_
    intro p first other
    obtain ⟨begin, below, ne, mem, rfl⟩ := (linesBegin t parent _ p).mp first
    obtain ⟨begin', below', ne', mem', eq⟩ :=
      (mem_path_linesAll fun u _ => linesBegin u).mp other
    obtain rfl := List.append_cancel_left eq
    obtain ⟨u, hu, path⟩ := mem_pathsAll.mp mem'
    obtain ⟨rest, eq⟩ := exists_cons_of_mem_paths mem
    obtain ⟨rest', eq'⟩ := exists_cons_of_mem_paths path
    obtain ⟨name, begin, rfl⟩ := List.exists_cons_of_ne_nil ne
    obtain rfl := (List.cons.inj eq).1
    exact fresh (List.mem_map.mpr ⟨u, hu, (List.cons.inj eq').1.symm⟩)

theorem linesDiffer {t : Trie} (proper : t.Proper) : LinesDiffer t := by
  induction proper with
  | @node name children plain distinct each ih =>
    intro parent last
    rw [Trie.lines, List.map_cons, List.nodup_cons]
    refine ⟨fun mem => ?_, nodup_linesAll distinct ih _⟩
    obtain ⟨begin, below, ne, -, eq⟩ := (mem_path_linesAll fun u _ => linesBegin u).mp mem
    have none : begin = [] := by simpa [TreeLine.path] using eq
    exact ne none

/-- Whether a file at one of some paths is in a folder. -/
def HasFile (paths : List String) (folder : List String) : Prop :=
  folder ≠ [] ∧ ∃ key ∈ paths, ∃ name below, segments key = folder ++ name :: below

/-- What a drawn tree shows: each file and each folder that has one, on a line of its own. -/
structure ShowsAll (paths : List String) : Prop where
  text : drawTree paths = String.join ((drawnLines paths).map (·.text))
  distinct : ((drawnLines paths).map (·.path)).Nodup
  covers : ∀ p, p ∈ (drawnLines paths).map (·.path) ↔
    (∃ key ∈ paths, segments key = p) ∨ HasFile paths p
  apart : ∀ key ∈ paths, ¬HasFile paths (segments key)
  oneLine : (∀ key ∈ paths, '\n' ∉ key.toList) →
    Text.lines (drawTree paths).toList = (drawnLines paths).map (·.body) ++ [[]]

theorem showsAll (apart : FoldersApart paths) : ShowsAll paths := by
  have drawn : drawnLines paths = linesAll [] (arrangedTrie paths) := by
    rw [drawnLines, ← pathsAll_arrangedTrie apart]
    exact treeLines_pathsAll (ofPaths_segments_proper paths).arrange
  have proper := (ofPaths_segments_proper paths).arrange
  have mem : ∀ q, q ∈ pathsAll (arrangedTrie paths) ↔ ∃ key ∈ paths, segments key = q := by
    intro q
    rw [pathsAll_arrangedTrie apart]
    simp [mem_sorted]
  refine ⟨rfl, ?_, fun p => ?_, ?_, fun plain => ?_⟩
  · rw [drawn]
    exact nodup_linesAll proper.distinct (fun t ht => linesDiffer (proper.each t ht)) []
  · rw [drawn, mem_path_linesAll fun t _ => linesBegin t]
    simp only [mem, List.nil_append]
    constructor
    · rintro ⟨begin, below, ne, ⟨key, hk, eq⟩, rfl⟩
      cases below with
      | nil => exact .inl ⟨key, hk, by simpa using eq⟩
      | cons name below => exact .inr ⟨ne, key, hk, name, below, eq⟩
    · rintro (⟨key, hk, rfl⟩ | ⟨ne, key, hk, name, below, eq⟩)
      · exact ⟨segments key, [], segments_ne_nil key, ⟨key, hk, by simp⟩, rfl⟩
      · exact ⟨p, name :: below, ne, ⟨key, hk, eq⟩, rfl⟩
  · rintro key hk ⟨-, other, ho, name, below, eq⟩
    have same := apart key hk other ho ⟨name :: below, eq.symm⟩
    rw [← same] at eq
    simp at eq
  · exact lines_join fun line hl => Drawable.names ⟨apart, plain⟩ hl

end CodeSurvey.Paths

namespace CodeSurvey.Loading

open Paths

namespace WalkOptions

variable {o : WalkOptions} {fuel nodes : Nat} {levels : List Level} {above : List (List String)}
  {place target path : List String} {name : String} {node found : FileNode}
  {entries : List (String × FileNode)} {file other : List String × FileNode}

/-- No path that a walk finds goes on where another ends. -/
theorem files_apart (root : o.root.Proper) (proper : (FileNode.folder entries).Proper)
    (hf : file ∈ o.files fuel levels above path entries)
    (ho : other ∈ o.files fuel levels above path entries) (begins : file.1 <+: other.1) :
    file.1 = other.1 := by
  induction fuel generalizing levels above path entries with
  | zero => cases hf
  | succ fuel ih =>
    obtain ⟨e, mem, hf⟩ := mem_files_entry hf
    obtain ⟨e', mem', ho⟩ := mem_files_entry ho
    obtain ⟨-, x, hx, rest, way, -⟩ := exists_way root (proper.single mem) hf
    obtain ⟨-, y, hy, rest', way', -⟩ := exists_way root (proper.single mem') ho
    have name : e.1 = e'.1 := by
      rw [way, way', List.mem_singleton.mp hx, List.mem_singleton.mp hy,
        List.prefix_append_right_inj, List.cons_prefix_cons] at begins
      exact begins.1
    cases proper with
    | folder distinct _ within =>
      obtain rfl : e = e' := List.inj_on_of_nodup_map distinct mem mem' name
      rcases files_entry (o := o) e with none | ⟨target, found, at_target, -, ⟨-, eq⟩ | below⟩
      · rw [none] at hf
        cases hf
      · rw [eq] at hf ho
        rw [List.mem_singleton.mp hf, List.mem_singleton.mp ho]
      · obtain ⟨inner, levels', rfl, eq⟩ := below
        rw [eq] at hf ho
        exact ih (proper_of_target? root (within e mem) at_target) hf ho

end WalkOptions

/-- Paths of the files of a project: none is empty, begins or ends with a slash or has a segment that
leads nowhere or up, and none goes on where another ends. -/
structure WellFormed (keys : List String) : Prop where
  nonempty : ∀ key ∈ keys, key ≠ ""
  noSlashFirst : ∀ key ∈ keys, ¬['/'] <+: key.toList
  noSlashLast : ∀ key ∈ keys, ¬['/'] <:+ key.toList
  steps : ∀ key ∈ keys, ∀ segment ∈ segments key, segment ≠ "" ∧ segment ≠ "." ∧ segment ≠ ".."
  apart : FoldersApart keys

variable {keys : List String} {disk : Disk} {root : FileNode} {path : String} {start : List String}
  {entries : List (String × FileNode)} {o : LoadOptions} {engine : Engine}

theorem wellFormed_of_names (named : ∀ key ∈ keys, ∀ segment ∈ segments key, IsName segment)
    (apart : FoldersApart keys) : WellFormed keys := by
  have full : ∀ key ∈ keys, "" ∉ segments key := by
    intro key mem empty
    exact absurd (named key mem "" empty).step (by decide)
  have none : "" ∈ segments (String.ofList []) := by decide
  refine ⟨fun key mem empty => ?_, ?_, ?_, fun key mem segment hs => ?_, apart⟩
  · apply full key mem
    rw [empty]
    exact none
  · rintro key mem ⟨behind, eq⟩
    apply full key mem
    have whole : key.toList = [] ++ '/' :: behind := eq.symm
    rw [segments_of_slash whole]
    exact List.mem_append_left _ none
  · rintro key mem ⟨before, eq⟩
    apply full key mem
    rw [segments_of_slash eq.symm]
    exact List.mem_append_right _ none
  · have step := (named key mem segment hs).step
    simp only [isStep, Bool.and_eq_true, decide_eq_true_eq] at step
    exact ⟨step.1, step.2, (named key mem segment hs).down⟩

theorem filesAt_folder (path : String) (o : LoadOptions) (engine : Engine)
    (here : root.descend? start = some (.folder entries)) :
    filesAt root path start o engine = [] ∨
      ∃ (walk : WalkOptions) (fuel : Nat) (levels : List Level), walk.root = root ∧
        filesAt root path start o engine = walk.files fuel levels [start] [] entries := by
  unfold filesAt
  split
  next => exact .inl rfl
  next =>
    refine .inr ⟨walkAt root start o engine, WalkOptions.maxNesting (countNodes root),
      levelAt engine root start.length start :: levelsAbove engine root start, rfl, ?_⟩
    have there : (walkAt root start o engine).root.descend? (walkAt root start o engine).start =
        some (.folder entries) := here
    rw [WalkOptions.walk, there]
    rfl

/-- What holds of the paths found below a folder. -/
structure LeadDown (found : List (List String × FileNode)) : Prop where
  names : ∀ file ∈ found, file.1 ≠ [] ∧ ∀ name ∈ file.1, IsName name
  plain : ∀ file ∈ found, segments (joined file.1) = file.1
  apart : ∀ file ∈ found, ∀ other ∈ found, file.1 <+: other.1 → file.1 = other.1

theorem leadDown_filesAt (path : String) (o : LoadOptions) (engine : Engine) (proper : root.Proper)
    (here : root.descend? start = some (.folder entries)) :
    LeadDown (filesAt root path start o engine) := by
  rcases filesAt_folder path o engine here with none | ⟨walk, fuel, levels, rfl, eq⟩
  · rw [none]
    exact ⟨nofun, nofun, nofun⟩
  have properHere := proper.descend? here
  have way (file : List String × FileNode) (mem : file ∈ walk.files fuel levels [start] [] entries) :
      file.1 ≠ [] ∧ ∀ name ∈ file.1, IsName name := by
    obtain ⟨-, e, -, rest, way, names, -⟩ := WalkOptions.exists_way proper properHere mem
    rw [way]
    exact ⟨List.cons_ne_nil _ _, names⟩
  rw [eq]
  refine ⟨way, fun file mem => ?_, fun file mem other mem' begins => ?_⟩
  · exact segments_joined (way file mem).1 fun name hn => ((way file mem).2 name hn).plain
  · exact WalkOptions.files_apart proper properHere mem mem' begins

/-- However the path of a folder is written, the same is loaded from it. -/
theorem load_eq_of_resolve? {other : String} (proper : disk.top.Proper)
    (h : disk.resolve? path = some start) (same : disk.resolve? other = some start)
    (here : disk.top.descend? start = some (.folder entries)) (named : path ≠ "-")
    (named' : other ≠ "-") : load disk path o engine = load disk other o engine := by
  have files : filesAt disk.top path start o engine = filesAt disk.top other start o engine := by
    rw [filesAt, filesAt, if_neg named, if_neg named']
  have down := leadDown_filesAt other o engine proper here
  have name (file : List String × FileNode) (mem : file ∈ filesAt disk.top other start o engine) :
      nameOf path file.1 = nameOf other file.1 := by
    obtain ⟨names, last, eq⟩ :=
      (List.eq_nil_or_concat' file.1).resolve_left (down.names file mem).1
    rw [eq, nameOf, nameOf, List.getLast?_concat]
  have fates : (filesAt disk.top other start o engine).map (o.fate path) =
      (filesAt disk.top other start o engine).map (o.fate other) :=
    List.map_congr_left fun file mem => by rw [LoadOptions.fate, LoadOptions.fate, name file mem]
  have total := List.countP_congr (l := filesAt disk.top other start o engine)
    (p := fun file => o.isWanted (nameOf path file.1)) fun file mem => by rw [name file mem]
  rw [load_eq proper h o engine, load_eq proper same o engine, files, fates, total]

/-- The files below a folder are loaded under the paths of a project, however the path of the folder
is written. -/
theorem load_wellFormed (proper : disk.top.Proper)
    (folder : disk.find? path = some (.folder entries)) (o : LoadOptions) (engine : Engine) :
    ∃ l, load disk path o engine = .ok l ∧ WellFormed l.files.keys ∧ ShowsAll l.files.keys := by
  obtain ⟨start, h, here⟩ := Option.bind_eq_some_iff.mp folder
  have loaded := load_eq proper h o engine
  have accounts := accounts_load proper h loaded
  have down := leadDown_filesAt path o engine proper here
  refine ⟨_, loaded, ?_⟩
  generalize ((filesAt disk.top path start o engine).map (o.fate path)).foldl LoadedFiles.add _ = l
    at accounts ⊢
  have found : ∀ key ∈ l.files.keys,
      ∃ file ∈ filesAt disk.top path start o engine, segments key = file.1 := by
    intro key mem
    obtain ⟨text, entry⟩ := SortedMap.mem_keys_iff_get?.mp mem
    obtain ⟨file, hf, rfl, -⟩ := (accounts.files key text).mp entry
    exact ⟨file, hf, down.plain file hf⟩
  have apart : FoldersApart l.files.keys := by
    intro p hp q hq begins
    obtain ⟨file, hf, eq⟩ := found p hp
    obtain ⟨other, ho, eq'⟩ := found q hq
    rw [eq, eq'] at begins ⊢
    exact down.apart file hf other ho begins
  refine ⟨wellFormed_of_names (fun key mem segment hs => ?_) apart, showsAll apart⟩
  obtain ⟨file, hf, eq⟩ := found key mem
  exact (down.names file hf).2 segment (eq ▸ hs)

def libraryEntries : List (String × FileNode) := [
  ("a.js", .file ⟨#[120]⟩),
  ("b", .folder [("c.md", .file ⟨#[121]⟩)]),
  ("up", .link "..")]

def linkedFolder : FileNode := .folder [("lib", .folder libraryEntries), ("main.js", .file ⟨#[122]⟩)]

theorem linkedFolder_proper : linkedFolder.Proper := by
  have inner : (FileNode.folder [("c.md", .file ⟨#[121]⟩)]).Proper :=
    .folder (by decide) (by decide) (by simp [FileNode.Proper.file])
  have library : (FileNode.folder libraryEntries).Proper :=
    .folder (by decide) (by decide) (by simp [libraryEntries, inner, FileNode.Proper.file, FileNode.Proper.link])
  exact .folder (by decide) (by decide) (by simp [library, FileNode.Proper.file])

def linkedDisk : Disk := { top := linkedFolder, current := ["lib"] }

theorem load_wellFormed_linked :
    linkedDisk.top.Proper ∧ linkedDisk.find? "/lib//b/.." = some (.folder libraryEntries) ∧
      ∃ l, load linkedDisk "/lib//b/.." { followLinks := true } = .ok l ∧
        WellFormed l.files.keys ∧ ShowsAll l.files.keys ∧
        l.files.keys = ["a.js", "b/c.md", "up/lib/a.js", "up/lib/b/c.md", "up/main.js"] := by
  have place : linkedDisk.resolve? "/lib//b/.." = some ["lib"] := by decide +kernel
  have folder : linkedDisk.find? "/lib//b/.." = some (.folder libraryEntries) := by
    rw [Disk.find?, place]
    rfl
  have keys : (load linkedDisk "/lib//b/.." { followLinks := true }).toOption.map (·.files.keys) =
      some ["a.js", "b/c.md", "up/lib/a.js", "up/lib/b/c.md", "up/main.js"] := by decide +kernel
  have proper : linkedDisk.top.Proper := linkedFolder_proper
  obtain ⟨l, ok, wellFormed, shows⟩ := load_wellFormed proper folder { followLinks := true } .standard
  rw [ok] at keys
  exact ⟨proper, folder, l, ok, wellFormed, shows, Option.some.inj keys⟩

end CodeSurvey.Loading
