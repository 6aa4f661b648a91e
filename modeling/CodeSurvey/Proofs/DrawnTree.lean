import CodeSurvey.Paths.Tree
import CodeSurvey.Proofs.SortedMap
import CodeSurvey.Proofs.TrieOrder

namespace CodeSurvey.Paths

open Text Trie

/-- The segments down to what a line names. -/
def TreeLine.path (line : TreeLine) : List String := line.parent ++ [line.name]

/-- The lines of the tree drawn of some paths. -/
def drawnLines (paths : List String) : List TreeLine := treeLines [] ((sorted paths).map segments)

variable {parent before path : List String} {later rest rows : List (List String)} {name : String}
  {line : TreeLine}

def linesFrom (depth : Nat) (path : List String) (later : List (List String)) : List TreeLine :=
  (path.zipIdx.drop depth).map fun (name, depth) =>
    ⟨path.take depth, name, isLastEntry (path.take depth) name later⟩

/-- The lines of sorted paths, those of the first one from some depth on. -/
def treeLinesFrom (depth : Nat) : List (List String) → List TreeLine
  | [] => []
  | path :: later => linesFrom depth path later ++ treeLines path later

theorem linesFor_eq_linesFrom :
    linesFor before path later = linesFrom (commonLength before path) path later := rfl

theorem mem_linesFrom {depth : Nat} : line ∈ linesFrom depth path later ↔
    depth ≤ line.parent.length ∧ line.path <+: path ∧
      line.last = isLastEntry line.parent line.name later := by
  constructor
  · intro mem
    obtain ⟨⟨name, i⟩, found, rfl⟩ := List.mem_map.mp mem
    obtain ⟨j, bound, eq⟩ := List.mem_iff_getElem.mp found
    simp only [List.getElem_drop, List.getElem_zipIdx, Prod.mk.injEq] at eq
    obtain ⟨rfl, rfl⟩ := eq
    have inside : depth + j < path.length := by simpa [Nat.lt_sub_iff_add_lt'] using bound
    refine ⟨by simp only [List.length_take]; omega, ?_, rfl⟩
    rw [TreeLine.path]
    simp only [Nat.zero_add, List.take_append_getElem]
    exact List.take_prefix _ _
  · rintro ⟨deep, ⟨below, rfl⟩, last⟩
    obtain ⟨parent, name, mark⟩ := line
    dsimp only at deep last
    subst last
    rw [TreeLine.path, List.append_assoc, List.singleton_append]
    refine List.mem_map.mpr ⟨(name, parent.length), ?_, by simp⟩
    refine List.mem_iff_getElem.mpr ⟨parent.length - depth, ?_, ?_⟩
    · simp
      omega
    · simp [Nat.add_sub_cancel' deep]

theorem prefix_of_mem_treeLines (mem : line ∈ treeLines before rows) :
    ∃ row ∈ rows, line.path <+: row := by
  induction rows generalizing before with
  | nil => cases mem
  | cons path later ih =>
    rcases List.mem_append.mp mem with mem | mem
    · rw [linesFor_eq_linesFrom, mem_linesFrom] at mem
      exact ⟨path, List.mem_cons_self, mem.2.1⟩
    · obtain ⟨row, found, begins⟩ := ih mem
      exact ⟨row, List.mem_cons_of_mem _ found, begins⟩

theorem treeLines_cons : treeLines before (path :: later) =
    treeLinesFrom (commonLength before path) (path :: later) := rfl

theorem linesFrom_append_cons (below : List String) :
    linesFrom parent.length (parent ++ name :: below) later =
      ⟨parent, name, isLastEntry parent name later⟩ ::
        linesFrom (parent.length + 1) (parent ++ name :: below) later := by
  have bound : parent.length < (parent ++ name :: below).zipIdx.length := by simp
  rw [linesFrom, List.drop_eq_getElem_cons bound, List.map_cons]
  simp [linesFrom]

theorem linesFrom_length (path : List String) (later : List (List String)) :
    linesFrom path.length path later = [] := by
  rw [linesFrom, List.drop_eq_nil_of_le (by simp), List.map_nil]

theorem commonLength_append {a b : String} (ne : a ≠ b) (x y : List String) :
    commonLength (parent ++ a :: x) (parent ++ b :: y) = parent.length := by
  induction parent with
  | nil => simp [commonLength, ne]
  | cons s parent ih => simp [commonLength, ih]

theorem isBelow_iff : isBelow parent path = true ↔ ∃ name below, path = parent ++ name :: below := by
  simp only [isBelow, Bool.and_eq_true, decide_eq_true_eq]
  constructor
  · rintro ⟨lt, eq⟩
    refine ⟨path[parent.length], path.drop (parent.length + 1), ?_⟩
    rw [← List.drop_eq_getElem_cons lt]
    conv => lhs; rw [← List.take_append_drop parent.length path, eq]
  · rintro ⟨name, below, rfl⟩
    simp

/-- Whether the first of some paths, if any, does not begin with another path. -/
def Outside (path : List String) (rest : List (List String)) : Prop :=
  ∀ next ∈ rest.head?, ¬path <+: next

theorem Outside.not_below (h : Outside parent rest) : rest.head?.any (isBelow parent) = false := by
  cases rest with
  | nil => rfl
  | cons next rest =>
    refine Bool.eq_false_iff.mpr fun below => ?_
    obtain ⟨name, below, rfl⟩ := isBelow_iff.mp below
    exact h _ rfl (List.prefix_append _ _)

theorem outside_of_not_below (h : rest.head?.any (isBelow parent) = false) :
    Outside (parent ++ [name]) rest := by
  rintro next hn ⟨below, rfl⟩
  rw [Option.mem_def.mp hn] at h
  have entry : isBelow parent (parent ++ [name] ++ below) = true :=
    isBelow_iff.mpr ⟨name, below, by simp⟩
  rw [Option.any_some, entry] at h
  cases h

/-- After paths that begin with an entry of a folder come other entries of the folder, which then
is not the last one, or none. -/
theorem isLastEntry_append (block : List (List String))
    (entry : ∀ path ∈ block, ∃ below, path = parent ++ name :: below)
    (outside : Outside (parent ++ [name]) rest) :
    isLastEntry parent name (block ++ rest) = !(rest.head?.any (isBelow parent)) := by
  have inBlock : ∀ path ∈ block, isBelow parent path = true := by
    intro path hp
    obtain ⟨below, rfl⟩ := entry path hp
    exact isBelow_iff.mpr ⟨name, below, rfl⟩
  have sameName : block.all (·[parent.length]? = some name) = true := by
    refine List.all_eq_true.mpr fun path hp => ?_
    obtain ⟨below, rfl⟩ := entry path hp
    simp
  rw [isLastEntry, List.takeWhile_append_of_pos inBlock, List.all_append, sameName, Bool.true_and]
  cases rest with
  | nil => rfl
  | cons next rest =>
    cases h : isBelow parent next with
    | false => simp [h]
    | true =>
      obtain ⟨other, below, rfl⟩ := isBelow_iff.mp h
      have ne : other ≠ name := by
        rintro rfl
        exact outside _ rfl ⟨below, by simp⟩
      simp [h, ne]

mutual

/-- The lines of a name and of all names below it. -/
def Trie.lines (parent : List String) (last : Bool) : Trie → List TreeLine
  | node name children => ⟨parent, name, last⟩ :: linesAll (parent ++ [name]) children

@[inherit_doc Trie.lines]
def Trie.linesAll (parent : List String) : List Trie → List TreeLine
  | [] => []
  | t :: rest => Trie.lines parent rest.isEmpty t ++ linesAll parent rest

end

def lastPath (block : List (List String)) : List String := block.getLast?.getD []

theorem lastPath_append {block block' : List (List String)} (ne : block' ≠ []) :
    lastPath (block ++ block') = lastPath block' := by
  simp [lastPath, List.getLast?_append, List.getLast?_eq_some_getLast ne]

theorem lastPath_paths (parent : List String) (t : Trie) :
    ∃ below, lastPath (t.paths.map (parent ++ ·)) = parent ++ t.name :: below := by
  obtain ⟨below, eq⟩ := exists_cons_of_mem_paths (List.getLast_mem (paths_ne_nil t))
  exact ⟨below, by simp [lastPath, List.getLast?_eq_some_getLast (paths_ne_nil t), eq]⟩

theorem pathsAll_cons_eq (t : Trie) (forest : List Trie) :
    ∃ below others, pathsAll (t :: forest) = (t.name :: below) :: others := by
  obtain ⟨path, others, hp⟩ := List.exists_cons_of_ne_nil (paths_ne_nil t)
  obtain ⟨below, rfl⟩ := exists_cons_of_mem_paths (hp ▸ List.mem_cons_self : path ∈ t.paths)
  exact ⟨below, others ++ pathsAll forest, by rw [pathsAll, hp, List.cons_append]⟩

/-- Whether the paths of a trie are drawn as the trie is, in any folder and whatever follows. -/
def Draws (t : Trie) : Prop :=
  ∀ parent rest, Outside (parent ++ [t.name]) rest →
    treeLinesFrom parent.length (t.paths.map (parent ++ ·) ++ rest) =
      t.lines parent (!rest.head?.any (isBelow parent)) ++
        treeLines (lastPath (t.paths.map (parent ++ ·))) rest

/-- A forest is drawn as its tries are, one after the other. -/
theorem treeLinesFrom_forest {forest : List Trie} (ne : forest ≠ [])
    (distinct : (forest.map Trie.name).Nodup) (each : ∀ t ∈ forest, Draws t)
    (ends : rest.head?.any (isBelow parent) = false) :
    treeLinesFrom parent.length ((pathsAll forest).map (parent ++ ·) ++ rest) =
      linesAll parent forest ++ treeLines (lastPath ((pathsAll forest).map (parent ++ ·))) rest := by
  induction forest with
  | nil => exact absurd rfl ne
  | cons t forest ih =>
    obtain ⟨fresh, distinct⟩ := List.nodup_cons.mp distinct
    obtain ⟨draws, each⟩ := List.forall_mem_cons.mp each
    rw [pathsAll, List.map_append, List.append_assoc, linesAll]
    cases forest with
    | nil =>
      rw [pathsAll, List.map_nil, List.nil_append, List.append_nil, linesAll, List.append_nil,
        draws parent rest (outside_of_not_below ends), ends]
      rfl
    | cons u forest =>
      have ih := ih (List.cons_ne_nil u forest) distinct each
      obtain ⟨below, others, hp⟩ := pathsAll_cons_eq u forest
      obtain ⟨last, hl⟩ := lastPath_paths parent t
      have ne : t.name ≠ u.name := fun eq => fresh (eq ▸ List.mem_cons_self)
      have outside : Outside (parent ++ [t.name])
          ((pathsAll (u :: forest)).map (parent ++ ·) ++ rest) := by
        rintro next hn begins
        obtain rfl : parent ++ u.name :: below = next := by simpa [hp] using hn
        exact ne (by simpa [List.cons_prefix_cons] using begins)
      have more : ((pathsAll (u :: forest)).map (parent ++ ·) ++ rest).head?.any (isBelow parent) =
          true := by
        simpa [hp] using isBelow_iff.mpr ⟨u.name, below, rfl⟩
      have next : treeLines (parent ++ t.name :: last)
          ((pathsAll (u :: forest)).map (parent ++ ·) ++ rest) =
            treeLinesFrom parent.length ((pathsAll (u :: forest)).map (parent ++ ·) ++ rest) := by
        rw [hp, List.map_cons, List.cons_append, treeLines_cons, commonLength_append ne]
      rw [draws parent _ outside, more, hl, next, ih,
        lastPath_append (by simpa using pathsAll_ne_nil (List.cons_ne_nil u forest)),
        List.append_assoc]
      rfl

theorem draws {t : Trie} (proper : t.Proper) : Draws t := by
  induction proper with
  | @node name children plain distinct each ih =>
    intro parent rest outside
    rw [name_node] at outside
    by_cases leaf : children = []
    · subst leaf
      have last := isLastEntry_append [] (by simp) outside
      rw [List.nil_append] at last
      have whole := linesFrom_length (parent ++ [name]) rest
      rw [List.length_append, List.length_singleton] at whole
      simp only [paths, List.isEmpty_nil, if_true, List.map_singleton, List.singleton_append,
        treeLinesFrom, linesFrom_append_cons, whole, last, Trie.lines, linesAll, lastPath,
        List.getLast?_singleton, Option.getD_some]
    · have block : (node name children).paths.map (parent ++ ·) =
          (pathsAll children).map (parent ++ [name] ++ ·) := by
        rw [paths, if_neg (by simpa using leaf), List.map_map]
        exact List.map_congr_left fun path _ => by simp
      obtain ⟨first, others, hp⟩ := List.exists_cons_of_ne_nil (pathsAll_ne_nil leaf)
      have last := isLastEntry_append (others.map (parent ++ [name] ++ ·)) (by simp) outside
      have below := treeLinesFrom_forest leaf distinct ih outside.not_below
      rw [block, Trie.lines, ← last, List.cons_append, ← below, hp, List.map_cons, List.cons_append]
      simp only [treeLinesFrom, List.append_assoc, linesFrom_append_cons, List.length_append,
        List.length_singleton, List.cons_append]

theorem treeLines_pathsAll {forest : List Trie} (h : ProperForest forest) :
    treeLines [] (pathsAll forest) = linesAll [] forest := by
  cases forest with
  | nil => rfl
  | cons t forest =>
    have drawn := treeLinesFrom_forest (List.cons_ne_nil t forest) h.distinct
      (fun t ht => draws (h.each t ht))
      (show ([] : List (List String)).head?.any (isBelow []) = false from rfl)
    obtain ⟨below, others, hp⟩ := pathsAll_cons_eq t forest
    simpa [hp, treeLines_cons, commonLength, treeLines] using drawn

theorem toList_indentation (depth : Nat) :
    ("".pushn ' ' (2 * depth)).toList = (String.join (List.replicate depth "  ")).toList := by
  rw [toList_pushn, String.toList_empty, List.nil_append, String.toList_join]
  induction depth with
  | zero => rfl
  | succ depth ih =>
    rw [List.replicate_succ, List.flatMap_cons, ← ih, Nat.mul_succ, Nat.add_comm, List.replicate_add]
    rfl

theorem join_lines (t : Trie) (parent : List String) (last : Bool) :
    String.join ((t.lines parent last).map (·.text)) = t.print parent.length last := by
  induction t using Trie.induction generalizing parent last with
  | node name children ih =>
    have below : ∀ forest : List Trie, (∀ t ∈ forest, t ∈ children) →
        String.join ((linesAll (parent ++ [name]) forest).map (·.text)) =
          printAll (parent.length + 1) forest := by
      intro forest mem
      induction forest with
      | nil => rfl
      | cons t forest ih' =>
        obtain ⟨ht, mem⟩ := List.forall_mem_cons.mp mem
        rw [linesAll, List.map_append, String.join_append, ih t ht, ih' mem, printAll,
          List.length_append, List.length_singleton]
    have indentation : "".pushn ' ' (2 * parent.length) =
        String.join (List.replicate parent.length "  ") :=
      String.toList_inj.mp (toList_indentation parent.length)
    rw [Trie.lines, List.map_cons, String.join_cons, below children fun _ h => h, print,
      TreeLine.text, indentation]

theorem join_linesAll (forest : List Trie) :
    String.join ((linesAll [] forest).map (·.text)) = printAll 0 forest := by
  induction forest with
  | nil => rfl
  | cons t forest ih =>
    rw [linesAll, List.map_append, String.join_append, join_lines, ih, printAll, List.length_nil]

theorem sorted_sorted (paths : List String) : (sorted paths).Pairwise (· < ·) :=
  SortedMap.keys_sorted _

theorem mem_sorted {paths : List String} {p : String} : p ∈ sorted paths ↔ p ∈ paths := by
  rw [sorted, SortedMap.mem_keys_ofList, List.map_map]
  simp

theorem sorted_congr {paths paths' : List String} (same : ∀ p, p ∈ paths' ↔ p ∈ paths) :
    sorted paths' = sorted paths :=
  SortedMap.sorted_texts_unique (sorted_sorted _) (sorted_sorted _)
    fun p => by rw [mem_sorted, mem_sorted, same]

/-- Whether no name is both a file and a folder: no path goes on where another ends. -/
def FoldersApart (paths : List String) : Prop :=
  ∀ p ∈ paths, ∀ q ∈ paths, segments p <+: segments q → segments p = segments q

instance (paths : List String) : Decidable (FoldersApart paths) :=
  inferInstanceAs (Decidable (∀ p ∈ paths, ∀ q ∈ paths, _ → _))

def arrangedTrie (paths : List String) : List Trie := arrange (ofPaths (paths.map segments))

theorem ofPaths_segments_proper (paths : List String) :
    ProperForest (ofPaths (paths.map segments)) := by
  refine ofPaths_proper fun p hp segment hs => ?_
  obtain ⟨path, -, rfl⟩ := List.mem_map.mp hp
  exact slash_notMem_segment hs

theorem pathsAll_arrangedTrie {paths : List String} (apart : FoldersApart paths) :
    pathsAll (arrangedTrie paths) = (sorted paths).map segments := by
  have mem : ∀ p, p ∈ pathsAll (arrangedTrie paths) ↔ p ∈ paths.map segments := by
    intro p
    rw [arrangedTrie, mem_pathsAll_arrange, mem_pathsAll_ofPaths]
    · simpa using fun path _ => segments_ne_nil path
    · simpa [FoldersApart] using apart
  have texts : (pathsAll (arrangedTrie paths)).map joined = sorted paths := by
    refine SortedMap.sorted_texts_unique ?_ (sorted_sorted paths) fun p => ?_
    · exact List.pairwise_map.mpr (ofPaths_segments_proper paths).paths_arrange_sorted
    · rw [mem_sorted, List.mem_map]
      constructor
      · rintro ⟨q, hq, rfl⟩
        obtain ⟨path, hp, rfl⟩ := List.mem_map.mp ((mem q).mp hq)
        rwa [joined_segments]
      · intro hp
        exact ⟨segments p, (mem _).mpr (List.mem_map_of_mem hp), joined_segments p⟩
  have back : ∀ q ∈ pathsAll (arrangedTrie paths), segments (joined q) = q := by
    intro q hq
    obtain ⟨path, -, rfl⟩ := List.mem_map.mp ((mem q).mp hq)
    rw [joined_segments]
  rw [← texts, List.map_map]
  exact ((List.map_congr_left back).trans (List.map_id' _)).symm

/-- Drawing paths line by line gives what their trie prints, and depends on neither their order nor
their repetition. -/
theorem drawTree_eq_print {paths : List String} (apart : FoldersApart paths) :
    drawTree paths = printAll 0 (arrangedTrie paths) ∧
      ∀ paths', (∀ p, p ∈ paths' ↔ p ∈ paths) → drawTree paths' = drawTree paths := by
  refine ⟨?_, fun paths' same => by rw [drawTree, drawTree, sorted_congr same]⟩
  have lines : treeLines [] (pathsAll (arrangedTrie paths)) = linesAll [] (arrangedTrie paths) :=
    treeLines_pathsAll (ofPaths_segments_proper paths).arrange
  rw [drawTree, ← pathsAll_arrangedTrie apart, lines, join_linesAll]

/-- Marks below the slash put a folder and a file before a folder whose name they continue. -/
theorem drawTree_eq_print_marks :
    FoldersApart ["lib/b", "lib-a/c", "lib.md", "lib/a/d", "lib-a/c"] ∧
      drawTree ["lib/b", "lib-a/c", "lib.md", "lib/a/d", "lib-a/c"] =
        printAll 0 (arrangedTrie ["lib/b", "lib-a/c", "lib.md", "lib/a/d", "lib-a/c"]) ∧
      drawTree ["lib/b", "lib-a/c", "lib.md", "lib/a/d", "lib-a/c"] =
        drawTree ["lib-a/c", "lib.md", "lib/a/d", "lib/b"] ∧
      drawTree ["lib/b", "lib-a/c", "lib.md", "lib/a/d", "lib-a/c"] =
        "├── lib-a\n  └── c\n├── lib.md\n└── lib\n  ├── a\n    └── d\n  └── b\n" := by
  have apart : FoldersApart ["lib/b", "lib-a/c", "lib.md", "lib/a/d", "lib-a/c"] := by decide
  refine ⟨apart, (drawTree_eq_print apart).1, ?_, ?_⟩
  · refine ((drawTree_eq_print apart).2 _ fun p => ?_).symm
    simp only [List.mem_cons, List.not_mem_nil, or_false]
    tauto
  · decide +kernel

end CodeSurvey.Paths
