import CodeSurvey.Proofs.PathTrie

namespace CodeSurvey.Paths.Trie

open Text

variable {name : String} {forest : List Trie} {t u : Trie} {p q path : List String}

/-- No name has a slash in it, and no folder has a name twice. -/
inductive Proper : Trie → Prop
  | node {name : String} {children : List Trie} (plain : '/' ∉ name.toList)
      (distinct : (children.map Trie.name).Nodup) (each : ∀ t ∈ children, Proper t) :
      Proper (node name children)

/-- The names of every folder stand in strictly increasing order. -/
inductive Ordered : Trie → Prop
  | node {name : String} {children : List Trie} (sorted : children.Pairwise (·.key < ·.key))
      (each : ∀ t ∈ children, Ordered t) : Ordered (node name children)

theorem Proper.plain (h : t.Proper) : '/' ∉ t.name.toList := by
  cases h
  assumption

structure ProperForest (forest : List Trie) : Prop where
  distinct : (forest.map Trie.name).Nodup
  each : ∀ t ∈ forest, t.Proper

theorem properForest_nil : ProperForest [] := ⟨List.nodup_nil, by simp⟩

theorem ProperForest.grow (h : ProperForest forest)
    (plain : ∀ segment ∈ path, '/' ∉ segment.toList) : ProperForest (Trie.grow path forest) := by
  induction path generalizing forest with
  | nil => exact h
  | cons name rest ih =>
    have below : ∀ {children : List Trie}, ProperForest children →
        (Trie.node name (Trie.grow rest children)).Proper := fun hc =>
      have grown := ih hc fun s hs => plain s (List.mem_cons_of_mem _ hs)
      .node (plain name List.mem_cons_self) grown.distinct grown.each
    rw [Trie.grow]
    split
    next =>
      refine ⟨?_, ?_⟩
      · have same : (forest.map fun t => if t.name = name then
            Trie.node name (Trie.grow rest t.children) else t).map Trie.name =
              forest.map Trie.name := by
          rw [List.map_map]
          refine List.map_congr_left fun t _ => ?_
          by_cases eq : t.name = name <;> simp [eq]
        exact same ▸ h.distinct
      · intro t ht
        obtain ⟨u, hu, rfl⟩ := List.mem_map.mp ht
        split
        next =>
          cases h.each u hu with
          | node _ distinct each => exact below ⟨distinct, each⟩
        next => exact h.each u hu
    next absent =>
      have absent : name ∉ forest.map Trie.name := by simpa using absent
      refine ⟨?_, ?_⟩
      · rw [List.map_append, List.map_singleton, name_node]
        exact h.distinct.append (List.nodup_singleton name)
          (List.disjoint_singleton.mpr absent)
      · intro t ht
        rcases List.mem_append.mp ht with ht | ht
        · exact h.each t ht
        · exact List.mem_singleton.mp ht ▸ below properForest_nil

theorem ofPaths_proper {paths : List (List String)}
    (plain : ∀ p ∈ paths, ∀ segment ∈ p, '/' ∉ segment.toList) :
    ProperForest (ofPaths paths) := by
  induction paths using List.reverseRecOn with
  | nil => exact properForest_nil
  | append_singleton paths path ih =>
    have step : ofPaths (paths ++ [path]) = Trie.grow path (ofPaths paths) := by simp [ofPaths]
    rw [step]
    exact (ih fun p hp => plain p (List.mem_append_left _ hp)).grow (plain path (by simp))

theorem toList_key (t : Trie) :
    t.key.toList = t.name.toList ++ if t.children = [] then [] else ['/'] := by
  unfold key
  by_cases h : t.children = [] <;> simp [h]

theorem name_eq_of_key_eq (ht : '/' ∉ t.name.toList) (hu : '/' ∉ u.name.toList)
    (h : t.key = u.key) : t.name = u.name := by
  have plain : ∀ {v : Trie}, '/' ∉ v.name.toList →
      v.name.toList = v.key.toList.takeWhile (· ≠ '/') := by
    intro v hv
    have before : ∀ c ∈ v.name.toList, decide (c ≠ '/') = true :=
      fun c hc => decide_eq_true fun eq => hv (eq ▸ hc)
    rw [toList_key, List.takeWhile_append_of_pos before]
    split <;> simp
  rw [← String.toList_inj, plain ht, plain hu, h]

@[simp]
theorem name_arranged (t : Trie) : t.arranged.name = t.name := by
  cases t
  rfl

theorem children_arranged (t : Trie) : t.arranged.children = arrange t.children := by
  cases t
  rfl

theorem arrange_perm (forest : List Trie) : (arrange forest).Perm (forest.map arranged) := by
  rw [arrange, arrangedAll_eq_map]
  exact List.mergeSort_perm _ _

theorem arrange_eq_nil : arrange forest = [] ↔ forest = [] := by
  constructor
  · intro h
    have perm := arrange_perm forest
    rw [h] at perm
    simpa using perm.nil_eq.symm
  · rintro rfl
    simp [arrange, arrangedAll]

theorem mem_paths_arranged : p ∈ t.arranged.paths ↔ p ∈ t.paths := by
  induction t using Trie.induction generalizing p with
  | node name children ih =>
    have each : ∀ q, q ∈ pathsAll (arrange children) ↔ q ∈ pathsAll children := by
      intro q
      simp only [mem_pathsAll, (arrange_perm children).mem_iff, List.mem_map,
        exists_exists_and_eq_and]
      exact exists_congr fun t => and_congr_right fun ht => ih t ht
    simp only [mem_paths, name_arranged, children_arranged, children_node, name_node, ne_eq,
      arrange_eq_nil, each]

theorem mem_pathsAll_arrange : p ∈ pathsAll (arrange forest) ↔ p ∈ pathsAll forest := by
  simp only [mem_pathsAll, (arrange_perm forest).mem_iff, List.mem_map, exists_exists_and_eq_and,
    mem_paths_arranged]

theorem map_name_arrange (forest : List Trie) :
    ((arrange forest).map Trie.name).Perm (forest.map Trie.name) := by
  have same : (forest.map arranged).map Trie.name = forest.map Trie.name := by
    rw [List.map_map]
    exact List.map_congr_left fun t _ => name_arranged t
  exact same ▸ (arrange_perm forest).map Trie.name

theorem precedes_iff : precedes t u = true ↔ t.key ≤ u.key := by
  simp [precedes, bytes_le_iff]

theorem arrange_sorted (distinct : (forest.map Trie.name).Nodup)
    (plain : ∀ t ∈ forest, '/' ∉ t.name.toList) :
    (arrange forest).Pairwise (·.key < ·.key) := by
  have transitive : ∀ a b c : Trie, precedes a b → precedes b c → precedes a c :=
    fun a b c hab hbc => precedes_iff.mpr
      (String.le_trans (precedes_iff.mp hab) (precedes_iff.mp hbc))
  have total : ∀ a b : Trie, precedes a b || precedes b a := fun a b => by
    rw [Bool.or_eq_true, precedes_iff, precedes_iff]
    exact String.le_total a.key b.key
  have le : (arrange forest).Pairwise fun t u => precedes t u = true :=
    List.pairwise_mergeSort transitive total _
  have ne : (arrange forest).Pairwise fun t u => t.name ≠ u.name :=
    List.pairwise_map.mp ((map_name_arrange forest).nodup_iff.mpr distinct)
  have mem_plain : ∀ t ∈ arrange forest, '/' ∉ t.name.toList := by
    intro t ht
    obtain ⟨u, hu, rfl⟩ := List.mem_map.mp ((arrange_perm forest).mem_iff.mp ht)
    rw [name_arranged]
    exact plain u hu
  refine (le.and ne).imp_of_mem fun ht hu ⟨hle, hne⟩ => ?_
  exact Std.lt_of_le_of_ne (precedes_iff.mp hle)
    fun eq => hne (name_eq_of_key_eq (mem_plain _ ht) (mem_plain _ hu) eq)

theorem Proper.arranged (h : t.Proper) : t.arranged.Proper ∧ t.arranged.Ordered := by
  induction h with
  | @node name children plain distinct each ih =>
    have mem : ∀ t ∈ arrange children, t.Proper ∧ t.Ordered := by
      intro t ht
      obtain ⟨u, hu, rfl⟩ := List.mem_map.mp ((arrange_perm children).mem_iff.mp ht)
      exact ih u hu
    exact ⟨.node plain ((map_name_arrange children).nodup_iff.mpr distinct)
        fun t ht => (mem t ht).1,
      .node (arrange_sorted distinct fun t ht => (each t ht).plain) fun t ht => (mem t ht).2⟩

theorem ProperForest.arrange (h : ProperForest forest) : ProperForest (Trie.arrange forest) := by
  refine ⟨(map_name_arrange forest).nodup_iff.mpr h.distinct, fun t ht => ?_⟩
  obtain ⟨u, hu, rfl⟩ := List.mem_map.mp ((arrange_perm forest).mem_iff.mp ht)
  exact (h.each u hu).arranged.1

theorem ProperForest.arrange_ordered (h : ProperForest forest) :
    ∀ t ∈ Trie.arrange forest, t.Ordered := by
  intro t ht
  obtain ⟨u, hu, rfl⟩ := List.mem_map.mp ((arrange_perm forest).mem_iff.mp ht)
  exact (h.each u hu).arranged.2

/-- Of two texts in order, either they stay so whatever follows, or the first begins the second. -/
theorem append_lt_append_or_prefix {xs ys : List Char} (h : xs < ys) :
    (∀ us vs, xs ++ us < ys ++ vs) ∨ xs <+: ys := by
  induction h with
  | nil => exact .inr List.nil_prefix
  | rel lt => exact .inl fun us vs => List.Lex.rel lt
  | cons _ ih =>
    rcases ih with lt | begins
    · exact .inl fun us vs => List.Lex.cons (lt us vs)
    · exact .inr (List.cons_prefix_cons.mpr ⟨rfl, begins⟩)

theorem append_left_lt {s a b : String} (h : a < b) : s ++ a < s ++ b := by
  show (s ++ a).toList < (s ++ b).toList
  rw [String.toList_append, String.toList_append]
  exact List.append_left_lt h

theorem joined_eq_key_append (h : p ∈ t.paths) :
    ∃ rest, joined p = t.key ++ rest ∧ (t.children = [] → rest = "") := by
  rcases mem_paths.mp h with ⟨leaf, rfl⟩ | ⟨folder, q, hq, rfl⟩
  · exact ⟨"", by simp [joined, key, leaf], fun _ => rfl⟩
  · refine ⟨joined q, ?_, fun leaf => absurd leaf folder⟩
    rw [joined_cons (ne_nil_of_mem_pathsAll hq), key, if_neg (by simpa using folder)]

theorem children_eq_nil_of_key_begins (hu : '/' ∉ u.name.toList) (ne : t.key ≠ u.key)
    (begins : t.key.toList <+: u.key.toList) : t.children = [] := by
  by_contra folder
  obtain ⟨rest, eq⟩ := begins
  rw [toList_key t, if_neg folder] at eq
  have more : rest ≠ [] := by
    rintro rfl
    apply ne
    rw [← String.toList_inj, toList_key t, if_neg folder, ← eq, List.append_nil]
  have inside : '/' ∈ u.key.toList.dropLast := by
    rw [← eq, List.dropLast_append_of_ne_nil more]
    simp
  rw [toList_key] at inside
  split at inside
  · exact hu ((List.dropLast_sublist _).mem (by simpa using inside))
  · exact hu (by simpa using inside)

theorem joined_lt_of_key_lt (hu : '/' ∉ u.name.toList) (lt : t.key < u.key) (hp : p ∈ t.paths)
    (hq : q ∈ u.paths) : joined p < joined q := by
  obtain ⟨x, eq, leaf⟩ := joined_eq_key_append hp
  obtain ⟨y, eq', -⟩ := joined_eq_key_append hq
  rw [eq, eq']
  show (t.key ++ x).toList < (u.key ++ y).toList
  rw [String.toList_append, String.toList_append]
  rcases append_lt_append_or_prefix lt with apart | begins
  · exact apart _ _
  · rw [leaf (children_eq_nil_of_key_begins hu (String.ne_of_lt lt) begins)]
    obtain ⟨rest, eq⟩ := begins
    have more : rest ≠ [] := by
      rintro rfl
      exact String.ne_of_lt lt (by rw [← String.toList_inj, ← eq, List.append_nil])
    obtain ⟨c, cs, rfl⟩ := List.exists_cons_of_ne_nil more
    rw [← eq, List.append_assoc]
    exact List.append_left_lt (List.nil_lt_cons _ _)

theorem pathsAll_sorted_of_each (plain : ∀ t ∈ forest, '/' ∉ t.name.toList)
    (sorted : forest.Pairwise (·.key < ·.key))
    (each : ∀ t ∈ forest, t.paths.Pairwise (joined · < joined ·)) :
    (pathsAll forest).Pairwise (joined · < joined ·) := by
  rw [pathsAll_eq_flatMap, List.pairwise_flatMap]
  exact ⟨each, sorted.imp_of_mem fun _ hu lt p hp q hq => joined_lt_of_key_lt (plain _ hu) lt hp hq⟩

theorem paths_sorted (proper : t.Proper) (ordered : t.Ordered) :
    t.paths.Pairwise (joined · < joined ·) := by
  induction ordered with
  | @node name children sorted each ih =>
    cases proper with
    | node plain distinct proper =>
      have below := pathsAll_sorted_of_each (fun t ht => (proper t ht).plain) sorted
        fun t ht => ih t ht (proper t ht)
      rw [paths]
      split
      next => exact List.pairwise_singleton _ _
      next =>
        refine List.pairwise_map.mpr (below.imp_of_mem fun hp hq lt => ?_)
        rw [joined_cons (ne_nil_of_mem_pathsAll hp), joined_cons (ne_nil_of_mem_pathsAll hq)]
        exact append_left_lt lt

theorem ProperForest.paths_arrange_sorted (h : ProperForest forest) :
    (pathsAll (Trie.arrange forest)).Pairwise (joined · < joined ·) :=
  pathsAll_sorted_of_each (fun t ht => (h.arrange.each t ht).plain)
    (arrange_sorted h.distinct fun t ht => (h.each t ht).plain)
    fun t ht => paths_sorted (h.arrange.each t ht) (h.arrange_ordered t ht)

end CodeSurvey.Paths.Trie
