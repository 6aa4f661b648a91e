import CodeSurvey.Proofs.ByteOrder
import CodeSurvey.Proofs.Segments
import Mathlib.Data.List.Induction
import Mathlib.Data.List.Nodup

namespace CodeSurvey.Paths

open Text

/-- A name, and below it the names that follow it on longer paths. Without any it ends a path. -/
inductive Trie where
  | node (name : String) (children : List Trie)

namespace Trie

def name : Trie → String
  | node n _ => n

def children : Trie → List Trie
  | node _ b => b

@[simp]
theorem name_node (n : String) (b : List Trie) : (node n b).name = n := rfl

@[simp]
theorem children_node (n : String) (b : List Trie) : (node n b).children = b := rfl

def grow : List String → List Trie → List Trie
  | [], forest => forest
  | name :: rest, forest =>
    if forest.any (·.name = name) then
      forest.map fun t => if t.name = name then node name (grow rest t.children) else t
    else forest ++ [node name (grow rest [])]

def ofPaths (paths : List (List String)) : List Trie :=
  paths.foldl (fun forest path => grow path forest) []

/-- The text that a name is ordered by: a folder counts with a slash behind its name. -/
def key (t : Trie) : String := if t.children.isEmpty then t.name else t.name ++ "/"

def precedes (a b : Trie) : Bool := bytes a.key ≤ bytes b.key

mutual

/-- Puts the names of every folder in the order of their bytes. -/
def arranged : Trie → Trie
  | node name children => node name ((arrangedAll children).mergeSort precedes)

@[inherit_doc arranged]
def arrangedAll : List Trie → List Trie
  | [] => []
  | t :: rest => arranged t :: arrangedAll rest

end

def arrange (forest : List Trie) : List Trie := (arrangedAll forest).mergeSort precedes

mutual

/-- One line for a name and one for each name below it, two spaces further in on each level. -/
def print (depth : Nat) (last : Bool) : Trie → String
  | node name children =>
    String.join (List.replicate depth "  ") ++ (if last then "└── " else "├── ") ++ name ++ "\n" ++
      printAll (depth + 1) children

@[inherit_doc print]
def printAll (depth : Nat) : List Trie → String
  | [] => ""
  | t :: rest => print depth rest.isEmpty t ++ printAll depth rest

end

mutual

def paths : Trie → List (List String)
  | node name children => if children.isEmpty then [[name]] else (pathsAll children).map (name :: ·)

def pathsAll : List Trie → List (List String)
  | [] => []
  | t :: rest => paths t ++ pathsAll rest

end

/-- What holds of a name whenever it holds of all names directly below it holds of every name. -/
@[elab_as_elim]
theorem induction {motive : Trie → Prop}
    (node : ∀ name children, (∀ t ∈ children, motive t) → motive (.node name children)) (t : Trie) :
    motive t :=
  Trie.rec (motive_1 := motive) (motive_2 := fun forest => ∀ t ∈ forest, motive t) node
    (fun _ h => absurd h List.not_mem_nil)
    (fun _ _ head tail => List.forall_mem_cons.mpr ⟨head, tail⟩) t

theorem pathsAll_eq_flatMap (forest : List Trie) : pathsAll forest = forest.flatMap paths := by
  induction forest with
  | nil => rfl
  | cons t rest ih => rw [pathsAll, ih, List.flatMap_cons]

theorem arrangedAll_eq_map (forest : List Trie) : arrangedAll forest = forest.map arranged := by
  induction forest with
  | nil => rfl
  | cons t rest ih => rw [arrangedAll, ih, List.map_cons]

variable {name : String} {forest children : List Trie} {t u : Trie} {p q path : List String}

theorem mem_pathsAll : p ∈ pathsAll forest ↔ ∃ t ∈ forest, p ∈ t.paths := by
  rw [pathsAll_eq_flatMap, List.mem_flatMap]

theorem mem_paths : p ∈ t.paths ↔
    (t.children = [] ∧ p = [t.name]) ∨
      (t.children ≠ [] ∧ ∃ q ∈ pathsAll t.children, p = t.name :: q) := by
  obtain ⟨name, children⟩ := t
  by_cases h : children = []
  · simp [paths, h]
  · simp [paths, h, eq_comm (b := p)]

theorem exists_cons_of_mem_paths (h : p ∈ t.paths) : ∃ rest, p = t.name :: rest := by
  rcases mem_paths.mp h with ⟨-, rfl⟩ | ⟨-, q, -, rfl⟩
  · exact ⟨[], rfl⟩
  · exact ⟨q, rfl⟩

theorem ne_nil_of_mem_pathsAll (h : p ∈ pathsAll forest) : p ≠ [] := by
  obtain ⟨t, -, hp⟩ := mem_pathsAll.mp h
  obtain ⟨rest, rfl⟩ := exists_cons_of_mem_paths hp
  exact List.cons_ne_nil _ _

theorem paths_ne_nil (t : Trie) : t.paths ≠ [] := by
  induction t using Trie.induction with
  | node name children ih =>
    cases children with
    | nil => simp [paths]
    | cons t rest => simp [paths, pathsAll, ih t List.mem_cons_self]

theorem pathsAll_ne_nil (h : forest ≠ []) : pathsAll forest ≠ [] := by
  obtain ⟨t, rest, rfl⟩ := List.exists_cons_of_ne_nil h
  exact List.append_ne_nil_of_left_ne_nil (paths_ne_nil t) _

theorem grow_ne_nil (ne : path ≠ []) : grow path forest ≠ [] := by
  obtain ⟨name, rest, rfl⟩ := List.exists_cons_of_ne_nil ne
  rw [grow]
  split
  next h =>
    obtain ⟨t, mem, -⟩ := List.any_eq_true.mp h
    simpa using List.ne_nil_of_mem mem
  next => simp

/-- Whether two paths are the same if one is a beginning of the other. -/
def Apart (p q : List String) : Prop := p <+: q ∨ q <+: p → p = q

theorem Apart.of_cons (h : Apart (name :: p) (name :: q)) : Apart p q := fun begins =>
  (List.cons.inj (h (by simpa using begins))).2

theorem mem_paths_grow_children {rest : List String}
    (apart : ∀ q ∈ t.paths, Apart (t.name :: rest) q)
    (ih : rest ≠ [] → (∀ q ∈ pathsAll t.children, Apart rest q) →
      ∀ p, p ∈ pathsAll (grow rest t.children) ↔ p = rest ∨ p ∈ pathsAll t.children) :
    p ∈ (node t.name (grow rest t.children)).paths ↔ p = t.name :: rest ∨ p ∈ t.paths := by
  by_cases leaf : t.children = []
  · -- the name ends a path, so the new path is that one
    have mem : [t.name] ∈ t.paths := mem_paths.mpr (.inl ⟨leaf, rfl⟩)
    have eq := apart _ mem (.inr ⟨rest, rfl⟩)
    have none : rest = [] := (List.cons.inj eq).2
    rw [none, grow, mem_paths, mem_paths]
    simp [leaf]
  · have more : rest ≠ [] := by
      rintro rfl
      obtain ⟨q, others, hq⟩ := List.exists_cons_of_ne_nil (pathsAll_ne_nil leaf)
      have mem : q ∈ pathsAll t.children := hq ▸ List.mem_cons_self
      have eq := apart _ (mem_paths.mpr (.inr ⟨leaf, q, mem, rfl⟩)) (.inl ⟨q, rfl⟩)
      exact ne_nil_of_mem_pathsAll mem (List.cons.inj eq).2.symm
    have ih := ih more fun q hq => (apart _ (mem_paths.mpr (.inr ⟨leaf, q, hq, rfl⟩))).of_cons
    simp only [mem_paths, children_node, name_node, grow_ne_nil more, leaf, ih, false_and, false_or,
      ne_eq, not_false_eq_true, true_and]
    constructor
    · rintro ⟨q, rfl | hq, rfl⟩
      · exact .inl rfl
      · exact .inr ⟨q, hq, rfl⟩
    · rintro (rfl | ⟨q, hq, rfl⟩)
      · exact ⟨rest, .inl rfl, rfl⟩
      · exact ⟨q, .inr hq, rfl⟩

theorem mem_pathsAll_grow (ne : path ≠ []) (apart : ∀ q ∈ pathsAll forest, Apart path q) :
    p ∈ pathsAll (grow path forest) ↔ p = path ∨ p ∈ pathsAll forest := by
  induction path generalizing forest p with
  | nil => exact absurd rfl ne
  | cons name rest ih =>
    rw [grow]
    split
    next found =>
      have each : ∀ t ∈ forest, ∀ p,
          p ∈ (if t.name = name then node name (grow rest t.children) else t).paths ↔
            (t.name = name ∧ p = name :: rest) ∨ p ∈ t.paths := by
        intro t ht p
        by_cases eq : t.name = name
        · subst eq
          have apart := fun q hq => apart q (mem_pathsAll.mpr ⟨t, ht, hq⟩)
          rw [if_pos rfl, mem_paths_grow_children apart fun more apart' _ => ih more apart']
          simp
        · simp [eq]
      obtain ⟨t, ht, eq⟩ : ∃ t ∈ forest, t.name = name := by simpa using found
      simp only [mem_pathsAll, List.mem_map, exists_exists_and_eq_and]
      constructor
      · rintro ⟨u, hu, hp⟩
        rcases (each u hu p).mp hp with ⟨-, rfl⟩ | hp
        · exact .inl rfl
        · exact .inr ⟨u, hu, hp⟩
      · rintro (rfl | ⟨u, hu, hp⟩)
        · exact ⟨t, ht, (each t ht _).mpr (.inl ⟨eq, rfl⟩)⟩
        · exact ⟨u, hu, (each u hu p).mpr (.inr hp)⟩
    next =>
      have fresh : p ∈ (node name (grow rest [])).paths ↔ p = name :: rest := by
        by_cases more : rest = []
        · simp [more, grow, paths]
        · have ih : ∀ q, q ∈ pathsAll (grow rest []) ↔ q = rest := fun q => by
            rw [ih more (by simp [pathsAll])]
            simp [pathsAll]
          simp [mem_paths, grow_ne_nil more, ih]
      rw [pathsAll_eq_flatMap, List.flatMap_append, List.mem_append, List.flatMap_singleton, fresh,
        ← pathsAll_eq_flatMap, or_comm]

theorem mem_pathsAll_ofPaths {paths : List (List String)} (ne : ∀ p ∈ paths, p ≠ [])
    (apart : ∀ p ∈ paths, ∀ q ∈ paths, p <+: q → p = q) :
    p ∈ pathsAll (ofPaths paths) ↔ p ∈ paths := by
  induction paths using List.reverseRecOn generalizing p with
  | nil => simp [ofPaths, pathsAll]
  | append_singleton paths path ih =>
    have ih : ∀ q, q ∈ pathsAll (ofPaths paths) ↔ q ∈ paths := fun q =>
      ih (fun p hp => ne p (List.mem_append_left _ hp))
        fun p hp q hq => apart p (List.mem_append_left _ hp) q (List.mem_append_left _ hq)
    have mem : path ∈ paths ++ [path] := by simp
    have step : ofPaths (paths ++ [path]) = grow path (ofPaths paths) := by simp [ofPaths]
    rw [step, mem_pathsAll_grow (ne path mem), ih, List.mem_append, List.mem_singleton, or_comm]
    intro q hq
    have hq : q ∈ paths ++ [path] := List.mem_append_left _ ((ih q).mp hq)
    rintro (begins | begins)
    · exact apart path mem q hq begins
    · exact (apart q hq path mem begins).symm

end Trie

end CodeSurvey.Paths
