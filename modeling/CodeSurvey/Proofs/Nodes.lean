import CodeSurvey.Syntax.Node
import Mathlib.Data.List.Basic

namespace CodeSurvey

/-- A node, with the nodes that it stands below, the outermost first. -/
structure Occurrence where
  above : List Node
  node : Node

namespace Node

mutual

/-- A node and all that named children lead to from it, in the order of the text. -/
def occurrences (above : List Node) : Node → List Occurrence
  | mk m children => ⟨above, mk m children⟩ :: occurrencesIn (above ++ [mk m children]) children

@[inherit_doc occurrences]
def occurrencesIn (above : List Node) : List Node → List Occurrence
  | [] => []
  | n :: rest => (if n.isNamed then occurrences above n else []) ++ occurrencesIn above rest

end

def reached (root : Node) : List Node := (occurrences [] root).map (·.node)

variable {n child : Node} {above nodes : List Node} {o : Occurrence} {cs ds : List Category}

theorem kind_of_isAny (h : n.isAny cs = true) : ∃ c ∈ cs, n.kind = .category c := by
  simpa [isAny, isA] using h

theorem isA_eq_isAny (n : Node) (c : Category) : n.isA c = n.isAny [c] := by
  simp [isAny]

theorem isAny_append : n.isAny (cs ++ ds) = (n.isAny cs || n.isAny ds) :=
  List.any_append

theorem isNamed_of_isAny (h : n.isAny cs = true) : n.isNamed = true := by
  obtain ⟨c, -, kind⟩ := kind_of_isAny h
  rw [isNamed, kind]
  rfl

theorem isAny_eq_false (h : n.isAny cs = true) (apart : ∀ c ∈ cs, c ∉ ds) : n.isAny ds = false := by
  obtain ⟨c, mem, kind⟩ := kind_of_isAny h
  simp only [isAny, isA, kind, List.any_eq_false, decide_eq_true_eq, Kind.category.injEq]
  rintro d hd rfl
  exact apart c mem hd

theorem self_mem_preorder (n : Node) : n ∈ n.preorder := by
  obtain ⟨m, children⟩ := n
  exact List.mem_cons_self

theorem mem_preorderAll (mem : n ∈ nodes) : n ∈ preorderAll nodes := by
  induction nodes with
  | nil => cases mem
  | cons first rest ih =>
    rcases List.mem_cons.mp mem with rfl | mem
    · exact List.mem_append_left _ (self_mem_preorder n)
    · exact List.mem_append_right _ (ih mem)

mutual

theorem preorder_sublist {n : Node} : ∀ root : Node, n ∈ root.preorder → n.preorder.Sublist root.preorder
  | mk m children, h => by
    rcases List.mem_cons.mp h with rfl | mem
    · exact .refl _
    · exact (preorderAll_sublist children mem).cons _

theorem preorderAll_sublist {n : Node} :
    ∀ nodes : List Node, n ∈ preorderAll nodes → n.preorder.Sublist (preorderAll nodes)
  | first :: rest, h => by
    rcases List.mem_append.mp h with mem | mem
    · exact (preorder_sublist first mem).trans (List.sublist_append_left _ _)
    · exact (preorderAll_sublist rest mem).trans (List.sublist_append_right _ _)

end

theorem child_mem_preorder (below : child ∈ n.children) (root : Node) (mem : n ∈ root.preorder) :
    child ∈ root.preorder := by
  obtain ⟨m, children⟩ := n
  exact (preorder_sublist root mem).subset (List.mem_cons_of_mem _ (mem_preorderAll below))

theorem role_mem_preorder {root : Node} {f : Role} (h : n.child? f = some child)
    (mem : n ∈ root.preorder) : child ∈ root.preorder :=
  child_mem_preorder (List.mem_of_find?_eq_some h) root mem

theorem namedChild_mem_preorder {root : Node} (h : child ∈ n.namedChildren)
    (mem : n ∈ root.preorder) : child ∈ root.preorder :=
  child_mem_preorder (List.mem_filter.mp h).1 root mem

theorem self_mem_occurrences (above : List Node) (n : Node) : ⟨above, n⟩ ∈ occurrences above n := by
  obtain ⟨m, children⟩ := n
  exact List.mem_cons_self

mutual

theorem mem_preorder_of_mem_occurrences {above : List Node} :
    ∀ n : Node, o ∈ occurrences above n → o.node ∈ n.preorder ∧
      ∃ between, o.above = above ++ between ∧ ∀ x ∈ between, x ∈ n.preorder
  | mk m children, h => by
    rcases List.mem_cons.mp h with rfl | mem
    · exact ⟨List.mem_cons_self, [], by simp, by simp⟩
    obtain ⟨inside, between, eq, within⟩ := mem_preorderAll_of_mem_occurrencesIn children mem
    refine ⟨List.mem_cons_of_mem _ inside, mk m children :: between, by simpa using eq, ?_⟩
    rintro x (_ | ⟨_, hx⟩)
    · exact List.mem_cons_self
    · exact List.mem_cons_of_mem _ (within x hx)

theorem mem_preorderAll_of_mem_occurrencesIn {above : List Node} :
    ∀ nodes : List Node, o ∈ occurrencesIn above nodes → o.node ∈ preorderAll nodes ∧
      ∃ between, o.above = above ++ between ∧ ∀ x ∈ between, x ∈ preorderAll nodes
  | n :: rest, h => by
    rcases List.mem_append.mp h with mem | mem
    · split at mem
      next =>
        obtain ⟨inside, between, eq, within⟩ := mem_preorder_of_mem_occurrences n mem
        exact ⟨List.mem_append_left _ inside, between, eq,
          fun x hx => List.mem_append_left _ (within x hx)⟩
      next => cases mem
    · obtain ⟨inside, between, eq, within⟩ := mem_preorderAll_of_mem_occurrencesIn rest mem
      exact ⟨List.mem_append_right _ inside, between, eq,
        fun x hx => List.mem_append_right _ (within x hx)⟩

end

end Node

end CodeSurvey
