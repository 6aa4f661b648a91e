import CodeSurvey.Proofs.Decisions
import Mathlib.Data.List.Induction

namespace CodeSurvey

namespace Source

def placeAfter (cs : List Char) : Position := cs.foldl Position.after .zero

theorem placeAfter_concat (cs : List Char) (c : Char) :
    placeAfter (cs ++ [c]) = (placeAfter cs).after c := by
  simp [placeAfter]

theorem offset_placeAfter (cs : List Char) : (placeAfter cs).offset = cs.length := by
  induction cs using List.reverseRecOn with
  | nil => rfl
  | append_singleton cs c ih =>
    rw [placeAfter_concat, Position.after, List.length_append, List.length_singleton, ← ih]
    split <;> rfl

theorem row_placeAfter (cs : List Char) : (placeAfter cs).row = cs.count '\n' := by
  induction cs using List.reverseRecOn with
  | nil => rfl
  | append_singleton cs c ih =>
    rw [placeAfter_concat, Position.after, List.count_append, ← ih]
    split
    next eq => rw [eq]; rfl
    next ne =>
      rw [List.count_eq_zero_of_not_mem (by simpa using Ne.symm ne)]
      rfl

theorem length_le_byte (cs : List Char) : cs.length ≤ (placeAfter cs).byte := by
  induction cs using List.reverseRecOn with
  | nil => exact Nat.le_refl _
  | append_singleton cs c ih =>
    rw [placeAfter_concat, Position.after, List.length_append, List.length_singleton]
    have := c.utf8Size_pos
    split <;> dsimp only <;> omega

def places (cs : List Char) : List Position :=
  (List.range (cs.length + 1)).map fun k => placeAfter (cs.take k)

theorem places_concat (cs : List Char) (c : Char) :
    places (cs ++ [c]) = places cs ++ [placeAfter (cs ++ [c])] := by
  have before : ∀ k ∈ List.range (cs.length + 1),
      placeAfter ((cs ++ [c]).take k) = placeAfter (cs.take k) := by
    intro k mem
    rw [List.take_append_of_le_length (Nat.le_of_lt_succ (List.mem_range.mp mem))]
  have whole : (cs ++ [c]).take (cs.length + 1) = cs ++ [c] := List.take_of_length_le (by simp)
  rw [places, List.length_append, List.length_singleton, List.range_succ, List.map_append,
    List.map_congr_left before, List.map_singleton, whole, places]

theorem foldl_places (cs : List Char) :
    cs.foldl (fun noted c => (noted.1.push (noted.2.after c), noted.2.after c))
      (#[Position.zero], Position.zero) = ((places cs).toArray, placeAfter cs) := by
  induction cs using List.reverseRecOn with
  | nil => rfl
  | append_singleton cs c ih =>
    rw [List.foldl_append, ih, List.foldl_cons, List.foldl_nil, places_concat, placeAfter_concat,
      List.push_toArray]

theorem positions_ofChars (cs : List Char) : (ofChars cs).positions = (places cs).toArray :=
  congrArg Prod.fst (foldl_places cs)

variable {content : String} {i j k : Nat}

theorem positionAt_ofString (content : String) (k : Nat) :
    (ofString content).positionAt k = placeAfter (content.toList.take k) := by
  have last : (places content.toList).getLast? = some (placeAfter content.toList) := by
    rw [places, List.range_succ, List.map_append, List.map_singleton, List.getLast?_concat,
      List.take_length]
  rw [ofString, positionAt, positions_ofChars, List.back?_toArray, last, Option.getD_some,
    Array.getD_eq_getD_getElem?, List.getElem?_toArray, places, List.getElem?_map]
  by_cases inside : k < content.toList.length + 1
  · rw [List.getElem?_range inside]
    rfl
  · rw [List.getElem?_eq_none (by simpa using inside), List.take_of_length_le (by omega)]
    rfl

theorem le_byte_positionAt (h : ((ofString content).positionAt k).offset = k) :
    k ≤ ((ofString content).positionAt k).byte := by
  have bound := length_le_byte (content.toList.take k)
  rwa [← offset_placeAfter, ← positionAt_ofString, h] at bound

theorem row_positionAt_le (content : String) (le : i ≤ j) :
    ((ofString content).positionAt i).row ≤ ((ofString content).positionAt j).row ∧
      ((ofString content).positionAt j).row ≤ ((ofString content).positionAt i).row + (j - i) := by
  simp only [positionAt_ofString, row_placeAfter]
  obtain ⟨d, rfl⟩ := Nat.exists_eq_add_of_le le
  rw [List.take_add, List.count_append]
  have bound := List.count_le_length (a := '\n') (l := (content.toList.drop i).take d)
  rw [List.length_take] at bound
  omega

theorem row_positionAt_succ (visible : (ofString content).chars[k]? ≠ some '\n') :
    ((ofString content).positionAt (k + 1)).row = ((ofString content).positionAt k).row := by
  simp only [positionAt_ofString, row_placeAfter]
  rw [List.take_add_one, List.count_append]
  cases h : content.toList[k]? with
  | none => rfl
  | some c =>
    have other : '\n' ∉ [c] := fun mem => visible (by rw [← List.mem_singleton.mp mem] at h; exact h)
    rw [Option.toList_some, List.count_eq_zero_of_not_mem other, Nat.add_zero]

end Source

def Node.width (n : Node) : Nat := n.mark.stop.offset - n.mark.start.offset

namespace Script

open Node

/-- What is relied on in a node of a script. -/
structure WellPlaced (s : Source) (n : Node) : Prop where
  start : n.mark.start = s.positionAt n.mark.start.offset
  stop : n.mark.stop = s.positionAt n.mark.stop.offset
  ordered : n.mark.start.offset ≤ n.mark.stop.offset
  within : ∀ child ∈ n.children,
    n.mark.start.offset ≤ child.mark.start.offset ∧ child.mark.stop.offset ≤ n.mark.stop.offset
  apart : n.children.Pairwise fun a b => a.mark.stop.offset ≤ b.mark.start.offset
  leaf : n.isNamed = false → n.children = []
  words : isDecision n = true → 2 ≤ sumOf width (n.children.filter fun child => !child.isNamed)
  begins : n.isAny functionDeclarations = true →
    n.mark.start.offset < n.mark.stop.offset ∧ s.chars[n.mark.start.offset]? ≠ some '\n'

instance (s : Source) (n : Node) : Decidable (WellPlaced s n) :=
  decidable_of_iff (n.mark.start = s.positionAt n.mark.start.offset ∧
    n.mark.stop = s.positionAt n.mark.stop.offset ∧ n.mark.start.offset ≤ n.mark.stop.offset ∧
    (∀ child ∈ n.children, n.mark.start.offset ≤ child.mark.start.offset ∧
      child.mark.stop.offset ≤ n.mark.stop.offset) ∧
    (n.children.Pairwise fun a b => a.mark.stop.offset ≤ b.mark.start.offset) ∧
    (n.isNamed = false → n.children = []) ∧
    (isDecision n = true → 2 ≤ sumOf width (n.children.filter fun child => !child.isNamed)) ∧
    (n.isAny functionDeclarations = true →
      n.mark.start.offset < n.mark.stop.offset ∧ s.chars[n.mark.start.offset]? ≠ some '\n'))
    ⟨fun ⟨a, b, c, d, e, f, g, h⟩ => ⟨a, b, c, d, e, f, g, h⟩,
      fun ⟨a, b, c, d, e, f, g, h⟩ => ⟨a, b, c, d, e, f, g, h⟩⟩

/-- What is relied on in the tree of a script; places are given in words of 32 bits. -/
structure Located (s : Source) (root : Node) : Prop where
  word : root.mark.stop.byte < 4294967296
  each : ∀ n ∈ root.preorder, WellPlaced s n

variable {s : Source} {cs : List Char} {n d root : Node} {nodes above : List Node}

mutual

theorem within_of_mem_preorder :
    ∀ n : Node, (∀ x ∈ n.preorder, WellPlaced s x) → d ∈ n.preorder →
      n.mark.start.offset ≤ d.mark.start.offset ∧ d.mark.stop.offset ≤ n.mark.stop.offset
  | .mk m children, placed, mem => by
    rcases List.mem_cons.mp mem with rfl | mem
    · exact ⟨Nat.le_refl _, Nat.le_refl _⟩
    · obtain ⟨child, hc, low, high⟩ := within_of_mem_preorderAll children
        (fun x hx => placed x (List.mem_cons_of_mem _ hx)) mem
      have bounds := (placed _ List.mem_cons_self).within child hc
      omega

theorem within_of_mem_preorderAll :
    ∀ nodes : List Node, (∀ x ∈ preorderAll nodes, WellPlaced s x) → d ∈ preorderAll nodes →
      ∃ n ∈ nodes,
        n.mark.start.offset ≤ d.mark.start.offset ∧ d.mark.stop.offset ≤ n.mark.stop.offset
  | n :: rest, placed, mem => by
    rcases List.mem_append.mp mem with mem | mem
    · exact ⟨n, List.mem_cons_self,
        within_of_mem_preorder n (fun x hx => placed x (List.mem_append_left _ hx)) mem⟩
    · obtain ⟨x, hx, bounds⟩ := within_of_mem_preorderAll rest
        (fun x hx => placed x (List.mem_append_right _ hx)) mem
      exact ⟨x, List.mem_cons_of_mem _ hx, bounds⟩

end

theorem sumOf_width_le {start stop : Nat} (le : start ≤ stop)
    (ordered : ∀ n ∈ nodes, n.mark.start.offset ≤ n.mark.stop.offset)
    (within : ∀ n ∈ nodes, start ≤ n.mark.start.offset ∧ n.mark.stop.offset ≤ stop)
    (apart : nodes.Pairwise fun a b => a.mark.stop.offset ≤ b.mark.start.offset) :
    sumOf width nodes ≤ stop - start := by
  induction nodes generalizing start with
  | nil => exact Nat.zero_le _
  | cons n rest ih =>
    obtain ⟨here, ordered⟩ := List.forall_mem_cons.mp ordered
    obtain ⟨bounds, within⟩ := List.forall_mem_cons.mp within
    obtain ⟨first, apart⟩ := List.pairwise_cons.mp apart
    have others := ih bounds.2 ordered (fun x hx => ⟨first x hx, (within x hx).2⟩) apart
    rw [sumOf, width]
    omega

theorem isNamed_of_isDecision (decision : isDecision n = true) : n.isNamed = true := by
  rcases Bool.or_eq_true_iff.mp decision with branching | operation
  · exact isNamed_of_isAny branching
  · have binary := (Bool.and_eq_true_iff.mp operation).1
    rw [isA_eq_isAny] at binary
    exact isNamed_of_isAny binary

theorem decisions_of_unnamed (unnamed : n.isNamed = false) (leaf : n.children = []) :
    decisions n = 0 := by
  have plain : isDecision n = false := by
    refine Bool.eq_false_iff.mpr fun decision => ?_
    exact Bool.false_ne_true (unnamed.symm.trans (isNamed_of_isDecision decision))
  obtain ⟨m, children⟩ := n
  obtain rfl : children = [] := leaf
  rw [decisions, decisionsIn, plain]
  rfl

mutual

/-- A decision takes at least two characters of the text that are no other decision's. -/
theorem two_mul_decisions_le :
    ∀ n : Node, (∀ x ∈ n.preorder, WellPlaced s x) → 2 * decisions n ≤ n.width
  | .mk m children, placed => by
    have here := placed _ List.mem_cons_self
    have placed : ∀ x ∈ preorderAll children, WellPlaced s x :=
      fun x hx => placed x (List.mem_cons_of_mem _ hx)
    have below := two_mul_decisionsIn_le children placed
    have split := sumOf_filter_add width (·.isNamed) children
    have whole : sumOf width children ≤ (Node.mk m children).width :=
      sumOf_width_le here.ordered (fun x hx => (placed x (mem_preorderAll hx)).ordered) here.within
        here.apart
    rw [decisions]
    split_ifs with decision
    · have own : 2 ≤ sumOf width (children.filter fun child => !child.isNamed) := here.words decision
      omega
    · omega

theorem two_mul_decisionsIn_le :
    ∀ nodes : List Node, (∀ x ∈ preorderAll nodes, WellPlaced s x) →
      2 * decisionsIn nodes ≤ sumOf width (nodes.filter (·.isNamed))
  | [], _ => Nat.le_refl _
  | n :: rest, placed => by
    have others := two_mul_decisionsIn_le rest fun x hx => placed x (List.mem_append_right _ hx)
    have placed : ∀ x ∈ n.preorder, WellPlaced s x := fun x hx => placed x (List.mem_append_left _ hx)
    rw [decisionsIn]
    cases named : n.isNamed with
    | true =>
      have first := two_mul_decisions_le n placed
      rw [List.filter_cons, if_pos named, sumOf]
      omega
    | false =>
      have none := decisions_of_unnamed named ((placed n (self_mem_preorder n)).leaf named)
      rw [List.filter_cons_of_neg (by simp [named])]
      omega

end

section Counts

variable {content : String}

theorem Located.offset_lt (located : Located (.ofString content) root) :
    root.mark.stop.offset < 4294967296 := by
  have place := (located.each root (self_mem_preorder root)).stop
  have bound := Source.le_byte_positionAt (congrArg Position.offset place).symm
  rw [← place] at bound
  exact Nat.lt_of_le_of_lt bound located.word

theorem Located.complexity_eq (located : Located (.ofString content) root)
    (mem : n ∈ root.preorder) : complexity n = 1 + decisions n := by
  have all := two_mul_decisions_le root located.each
  have bound := located.offset_lt
  have fewer := decisions_le mem
  refine Script.complexity_eq ?_
  rw [width] at all
  unfold maxDecisions
  omega

theorem lineCount_eq_mod (le : n.mark.start.row ≤ n.mark.stop.row) :
    n.lineCount = (n.mark.stop.row - n.mark.start.row + 1) % 4294967296 := by
  rw [lineCount, UInt32.toNat_add, UInt32.toNat_sub, UInt32.toNat_ofNat', UInt32.toNat_ofNat']
  simp only [UInt32.reduceToNat]
  omega

theorem WellPlaced.row_le (placed : WellPlaced (.ofString content) n) :
    n.mark.start.row ≤ n.mark.stop.row := by
  rw [placed.start, placed.stop]
  exact (Source.row_positionAt_le content placed.ordered).1

theorem Located.lineCount_eq (located : Located (.ofString content) root) (mem : n ∈ root.preorder)
    (function : n.isAny functionDeclarations = true) :
    n.lineCount = n.mark.stop.row - n.mark.start.row + 1 := by
  have placed := located.each n mem
  obtain ⟨some, visible⟩ := placed.begins function
  have first := Source.row_positionAt_succ visible
  have others := (Source.row_positionAt_le content some).2
  rw [← placed.start] at first
  rw [← placed.stop, Nat.succ_eq_add_one, first] at others
  have inside := (within_of_mem_preorder root located.each mem).2
  have bound := located.offset_lt
  rw [lineCount_eq_mod placed.row_le, Nat.mod_eq_of_lt (by omega)]

theorem Located.lineCount_le (located : Located (.ofString content) root) (mem : n ∈ root.preorder)
    (below : d ∈ n.preorder) (outer : n.isAny functionDeclarations = true)
    (inner : d.isAny functionDeclarations = true) : d.lineCount ≤ n.lineCount := by
  have inTree := (preorder_sublist root mem).subset
  obtain ⟨low, high⟩ := within_of_mem_preorder n (fun x hx => located.each x (inTree hx)) below
  have first := (Source.row_positionAt_le content low).1
  have last := (Source.row_positionAt_le content high).1
  rw [← (located.each n mem).start, ← (located.each d (inTree below)).start] at first
  rw [← (located.each n mem).stop, ← (located.each d (inTree below)).stop] at last
  rw [located.lineCount_eq mem outer, located.lineCount_eq (inTree below) inner]
  omega

end Counts

mutual

theorem occurrences_pairwise {above : List Node} :
    ∀ n : Node, (∀ x ∈ n.preorder, WellPlaced s x) →
      (occurrences above n).Pairwise fun a b => 0 < b.node.width → ¬b.way <+: a.above
  | .mk m children, placed => by
    refine List.pairwise_cons.mpr ⟨fun b mem _ within => ?_, occurrencesIn_pairwise children
      (fun x hx => placed x (List.mem_cons_of_mem _ hx)) (placed _ List.mem_cons_self).apart⟩
    obtain ⟨first, between, way, -⟩ := way_of_mem_occurrencesIn children mem
    have longer := within.length_le
    rw [way] at longer
    simp only [List.length_append, List.length_cons] at longer
    omega

theorem occurrencesIn_pairwise {above : List Node} :
    ∀ nodes : List Node, (∀ x ∈ preorderAll nodes, WellPlaced s x) →
      nodes.Pairwise (fun a b => a.mark.stop.offset ≤ b.mark.start.offset) →
      (occurrencesIn above nodes).Pairwise fun a b => 0 < b.node.width → ¬b.way <+: a.above
  | [], _, _ => .nil
  | n :: rest, placed, apart => by
    obtain ⟨first, apart⟩ := List.pairwise_cons.mp apart
    have others : (occurrencesIn above rest).Pairwise fun a b => 0 < b.node.width →
        ¬b.way <+: a.above :=
      occurrencesIn_pairwise rest (fun x hx => placed x (List.mem_append_right _ hx)) apart
    have here : (if n.isNamed then occurrences above n else []).Pairwise
        fun a b => 0 < b.node.width → ¬b.way <+: a.above := by
      split
      next => exact occurrences_pairwise n fun x hx => placed x (List.mem_append_left _ hx)
      next => exact .nil
    refine List.pairwise_append.mpr ⟨here, others, fun a ha b hb wide within => ?_⟩
    split at ha
    next =>
      obtain ⟨-, between, eq, below⟩ := mem_preorder_of_mem_occurrences n ha
      obtain ⟨later, between', eq', -⟩ := mem_preorderAll_of_mem_occurrencesIn rest hb
      rw [eq, Occurrence.way, eq', List.append_assoc, List.prefix_append_right_inj] at within
      have inside := below b.node (within.subset (by simp))
      have high := (within_of_mem_preorder n
        (fun x hx => placed x (List.mem_append_left _ hx)) inside).2
      obtain ⟨x, hx, low, -⟩ := within_of_mem_preorderAll rest
        (fun x hx => placed x (List.mem_append_right _ hx)) later
      have next := first x hx
      rw [width] at wide
      omega
    next => cases ha

end

end Script

end CodeSurvey
