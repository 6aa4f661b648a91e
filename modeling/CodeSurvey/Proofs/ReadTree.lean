import CodeSurvey.Proofs.DrawnTree

namespace CodeSurvey.Paths

open Text Trie

/-- How deep a line of a drawn tree stands, by the spaces before it, and what it names after the four
characters of its mark. -/
def entryOf (line : List Char) : Nat × String :=
  ((line.takeWhile (· = ' ')).length / 2,
    String.ofList ((line.dropWhile (· = ' ')).drop 4))

/-- Whether nothing that follows at once stands deeper. -/
def endsAt (depth : Nat) (rest : List (Nat × String)) : Bool := rest.head?.all (·.1 ≤ depth)

/-- The paths to those entries that nothing deeper follows, with the folders that are open. -/
def leafPaths (opened : List String) : List (Nat × String) → List (List String)
  | [] => []
  | (depth, name) :: rest =>
    let path := opened.take depth ++ [name]
    (if endsAt depth rest then [path] else []) ++ leafPaths path rest

/-- The paths that a drawn tree shows. -/
def readTree (text : String) : List String :=
  (leafPaths [] ((lines text.toList).dropLast.map entryOf)).map joined

variable {parent opened : List String} {name : String} {rest : List (Nat × String)} {depth : Nat}

theorem leafPaths_cons : leafPaths opened ((depth, name) :: rest) =
    (if endsAt depth rest then [opened.take depth ++ [name]] else []) ++
      leafPaths (opened.take depth ++ [name]) rest := rfl

theorem endsAt_mono {depth' : Nat} (le : depth ≤ depth') (ends : endsAt depth rest = true) :
    endsAt depth' rest = true := by
  cases rest with
  | nil => rfl
  | cons next rest =>
    have bound : next.1 ≤ depth := by simpa [endsAt] using ends
    simpa [endsAt] using Nat.le_trans bound le

/-- What a line tells a reader. -/
def TreeLine.entry (line : TreeLine) : Nat × String := (line.parent.length, line.name)

theorem lines_eq_cons (t : Trie) (parent : List String) (last : Bool) :
    ∃ others, t.lines parent last = ⟨parent, t.name, last⟩ :: others := by
  obtain ⟨name, children⟩ := t
  exact ⟨_, rfl⟩

theorem endsAt_linesAll {forest : List Trie} (ne : forest ≠ []) :
    endsAt depth ((linesAll parent forest).map (·.entry) ++ rest) = decide (parent.length ≤ depth) := by
  obtain ⟨t, forest, rfl⟩ := List.exists_cons_of_ne_nil ne
  obtain ⟨others, eq⟩ := lines_eq_cons t parent forest.isEmpty
  rw [linesAll, eq]
  rfl

/-- Whether the lines of a trie are read as its paths, in any folder and whatever comes next. -/
def ReadsBack (t : Trie) : Prop :=
  ∀ parent below last rest, endsAt parent.length rest = true → ∃ below',
    leafPaths (parent ++ below) ((t.lines parent last).map (·.entry) ++ rest) =
      t.paths.map (parent ++ ·) ++ leafPaths (parent ++ below') rest

theorem leafPaths_linesAll {forest : List Trie} (each : ∀ t ∈ forest, ReadsBack t)
    (parent below : List String) (ends : endsAt parent.length rest = true) : ∃ below',
      leafPaths (parent ++ below) ((linesAll parent forest).map (·.entry) ++ rest) =
        (pathsAll forest).map (parent ++ ·) ++ leafPaths (parent ++ below') rest := by
  induction forest generalizing below with
  | nil => exact ⟨below, rfl⟩
  | cons t forest ih =>
    obtain ⟨reads, each⟩ := List.forall_mem_cons.mp each
    have next : endsAt parent.length ((linesAll parent forest).map (·.entry) ++ rest) = true := by
      by_cases none : forest = []
      · rw [none]
        exact ends
      · rw [endsAt_linesAll none]
        exact decide_eq_true (Nat.le_refl _)
    obtain ⟨middle, here⟩ := reads parent below forest.isEmpty _ next
    obtain ⟨below', others⟩ := ih each middle
    refine ⟨below', ?_⟩
    rw [linesAll, List.map_append, List.append_assoc, here, others, pathsAll, List.map_append,
      List.append_assoc]

theorem readsBack (t : Trie) : ReadsBack t := by
  induction t using Trie.induction with
  | node name children ih =>
    intro parent below last rest ends
    have opened : (parent ++ below).take parent.length = parent := by simp
    rw [Trie.lines, List.map_cons, List.cons_append, TreeLine.entry, leafPaths_cons, opened, paths]
    by_cases leaf : children = []
    · subst leaf
      refine ⟨[name], ?_⟩
      rw [linesAll, List.map_nil, List.nil_append, if_pos ends]
      rfl
    · -- the first entry of a folder stands right below it
      have inner : endsAt parent.length ((linesAll (parent ++ [name]) children).map (·.entry) ++ rest) =
          false := by
        rw [endsAt_linesAll leaf, List.length_append, List.length_singleton]
        exact decide_eq_false (Nat.not_succ_le_self _)
      have outer : endsAt (parent ++ [name]).length rest = true := endsAt_mono (by simp) ends
      obtain ⟨below', eq⟩ := leafPaths_linesAll ih (parent ++ [name]) [] outer
      refine ⟨name :: below', ?_⟩
      rw [inner, if_neg Bool.false_ne_true, if_neg (by simpa using leaf), List.nil_append]
      simpa [Function.comp_def] using eq

theorem leafPaths_lines (forest : List Trie) :
    leafPaths [] ((linesAll [] forest).map (·.entry)) = pathsAll forest := by
  have all : ∀ t ∈ forest, ReadsBack t := fun t _ => readsBack t
  obtain ⟨below, eq⟩ := leafPaths_linesAll all [] [] (show endsAt 0 [] = true from rfl)
  simpa [leafPaths] using eq

def TreeLine.mark (line : TreeLine) : List Char :=
  (if line.last then "└── " else "├── ").toList

/-- A line of a drawn tree without its end. -/
def TreeLine.body (line : TreeLine) : List Char :=
  List.replicate (2 * line.parent.length) ' ' ++ (line.mark ++ line.name.toList)

theorem toList_text (line : TreeLine) : line.text.toList = line.body ++ ['\n'] := by
  simp [TreeLine.text, toList_pushn, TreeLine.body, TreeLine.mark]

theorem break_notMem_body {line : TreeLine} (plain : '\n' ∉ line.name.toList) :
    '\n' ∉ line.body := by
  have mark : '\n' ∉ line.mark := by
    cases h : line.last <;> simp [TreeLine.mark, h]
  intro mem
  rcases List.mem_append.mp mem with space | mem
  · exact absurd (List.eq_of_mem_replicate space) (by decide)
  · rcases List.mem_append.mp mem with mem | mem
    · exact mark mem
    · exact plain mem

/-- The mark before a name is no space, so all spaces before it are the indentation. -/
theorem entryOf_body (line : TreeLine) : entryOf line.body = line.entry := by
  have spaces : ∀ c ∈ List.replicate (2 * line.parent.length) ' ', decide (c = ' ') = true :=
    fun c mem => decide_eq_true (List.eq_of_mem_replicate mem)
  have marked : (line.mark ++ line.name.toList).takeWhile (· = ' ') = [] ∧
      (line.mark ++ line.name.toList).dropWhile (· = ' ') = line.mark ++ line.name.toList ∧
      line.mark.length = 4 := by
    cases h : line.last <;> simp [TreeLine.mark, h]
  obtain ⟨none, all, size⟩ := marked
  rw [entryOf, TreeLine.body, List.takeWhile_append_of_pos spaces, List.dropWhile_append_of_pos spaces,
    none, all, List.append_nil, List.length_replicate, ← size, List.drop_left, String.ofList_toList,
    Nat.mul_div_cancel_left _ (by decide)]
  rfl

theorem lines_join {ls : List TreeLine} (plain : ∀ line ∈ ls, '\n' ∉ line.name.toList) :
    lines (String.join (ls.map (·.text))).toList = ls.map (·.body) ++ [[]] := by
  induction ls with
  | nil => rfl
  | cons line ls ih =>
    obtain ⟨here, plain⟩ := List.forall_mem_cons.mp plain
    rw [List.map_cons, String.join_cons, String.toList_append, toList_text, List.append_assoc,
      List.singleton_append, lines_append_break, lines_of_notMem (break_notMem_body here), ih plain]
    rfl

theorem entries_join {ls : List TreeLine} (plain : ∀ line ∈ ls, '\n' ∉ line.name.toList) :
    (lines (String.join (ls.map (·.text))).toList).dropLast.map entryOf = ls.map (·.entry) := by
  rw [lines_join plain, List.dropLast_concat, List.map_map]
  exact List.map_congr_left fun line _ => entryOf_body line

theorem name_mem_of_mem_treeLines {line : TreeLine} {before : List String}
    {rows : List (List String)} (h : line ∈ treeLines before rows) :
    ∃ path ∈ rows, line.name ∈ path := by
  obtain ⟨path, mem, begins⟩ := prefix_of_mem_treeLines h
  exact ⟨path, mem, begins.subset (by simp [TreeLine.path])⟩

/-- Paths of a project that a tree is drawn of: each on one line, and none goes on where another
ends. -/
structure Drawable (paths : List String) : Prop where
  apart : FoldersApart paths
  plain : ∀ p ∈ paths, '\n' ∉ p.toList

theorem Drawable.names {paths : List String} (h : Drawable paths) {line : TreeLine}
    (mem : line ∈ treeLines [] ((sorted paths).map segments)) : '\n' ∉ line.name.toList := by
  obtain ⟨row, found, here⟩ := name_mem_of_mem_treeLines mem
  obtain ⟨path, drawn, rfl⟩ := List.mem_map.mp found
  intro inside
  exact h.plain path (mem_sorted.mp drawn) (mem_of_mem_segment here '\n' inside)

/-- A drawn tree shows just the paths that it was drawn of, so no two sets of paths are drawn alike. -/
theorem readTree_drawTree {paths : List String} (h : Drawable paths) :
    readTree (drawTree paths) = sorted paths ∧
      ∀ paths', Drawable paths' →
        (drawTree paths' = drawTree paths ↔ ∀ p, p ∈ paths' ↔ p ∈ paths) := by
  have reads : ∀ {paths}, Drawable paths → readTree (drawTree paths) = sorted paths := by
    intro paths h
    have drawn : treeLines [] (pathsAll (arrangedTrie paths)) = linesAll [] (arrangedTrie paths) :=
      treeLines_pathsAll (ofPaths_segments_proper paths).arrange
    rw [pathsAll_arrangedTrie h.apart] at drawn
    rw [readTree, drawTree, entries_join fun line mem => h.names mem, drawn, leafPaths_lines,
      pathsAll_arrangedTrie h.apart, List.map_map]
    exact (List.map_congr_left fun p _ => joined_segments p).trans (List.map_id' _)
  refine ⟨reads h, fun paths' h' => ⟨fun same p => ?_, fun same => ?_⟩⟩
  · rw [← mem_sorted, ← reads h', same, reads h, mem_sorted]
  · rw [drawTree, drawTree, sorted_congr same]

/-- Segments may be empty, begin with spaces, or look like the marks of a tree. -/
theorem readTree_drawTree_marks :
    Drawable ["├── d/e", "a//b", "a/  c"] ∧ Drawable ["a//b", "├── d/e", "a/  c", "a//b"] ∧
      readTree (drawTree ["├── d/e", "a//b", "a/  c"]) = ["a/  c", "a//b", "├── d/e"] ∧
      drawTree ["a//b", "├── d/e", "a/  c", "a//b"] = drawTree ["├── d/e", "a//b", "a/  c"] := by
  have drawable : Drawable ["├── d/e", "a//b", "a/  c"] := ⟨by decide, by decide⟩
  have drawable' : Drawable ["a//b", "├── d/e", "a/  c", "a//b"] := ⟨by decide, by decide⟩
  have order : sorted ["├── d/e", "a//b", "a/  c"] = ["a/  c", "a//b", "├── d/e"] := by decide
  obtain ⟨reads, alike⟩ := readTree_drawTree drawable
  refine ⟨drawable, drawable', reads.trans order, (alike _ drawable').mpr fun p => ?_⟩
  simp only [List.mem_cons, List.not_mem_nil, or_false]
  tauto

end CodeSurvey.Paths
