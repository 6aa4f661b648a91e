import CodeSurvey.Proofs.Inventory

namespace CodeSurvey

/-- The way down to a node, itself included. -/
def Occurrence.way (o : Occurrence) : List Node := o.above ++ [o.node]

namespace Node

mutual

/-- A node and all nodes below it, each with those that it stands below. -/
def places (above : List Node) : Node → List Occurrence
  | mk m children => ⟨above, mk m children⟩ :: placesIn (above ++ [mk m children]) children

@[inherit_doc places]
def placesIn (above : List Node) : List Node → List Occurrence
  | [] => []
  | n :: rest => places above n ++ placesIn above rest

end

variable {x root : Node} {above nodes : List Node} {o : Occurrence}

mutual

theorem map_node_places (above : List Node) :
    ∀ n : Node, (places above n).map (·.node) = n.preorder
  | mk m children => by
    rw [places, preorder, List.map_cons, map_node_placesIn]

theorem map_node_placesIn (above : List Node) :
    ∀ nodes : List Node, (placesIn above nodes).map (·.node) = preorderAll nodes
  | [] => rfl
  | n :: rest => by
    rw [placesIn, preorderAll, List.map_append, map_node_places, map_node_placesIn]

end

mutual

theorem way_of_mem_places {above : List Node} :
    ∀ n : Node, o ∈ places above n → ∃ between, o.way = above ++ n :: between
  | mk m children, h => by
    rcases List.mem_cons.mp h with rfl | mem
    · exact ⟨[], rfl⟩
    · obtain ⟨child, between, eq⟩ := way_of_mem_placesIn children mem
      exact ⟨child :: between, by simpa using eq⟩

theorem way_of_mem_placesIn {above : List Node} :
    ∀ nodes : List Node, o ∈ placesIn above nodes →
      ∃ n between, o.way = above ++ n :: between
  | n :: rest, h => by
    rcases List.mem_append.mp h with mem | mem
    · obtain ⟨between, eq⟩ := way_of_mem_places n mem
      exact ⟨n, between, eq⟩
    · exact way_of_mem_placesIn rest mem

end

mutual

/-- On the way down to a node a walk comes to all nodes from the top on, up to one without a name. -/
theorem mem_occurrences_of_start {above between before : List Node} :
    ∀ n : Node, o ∈ places above n → o.way = above ++ n :: between →
      before ++ [x] <+: n :: between.takeWhile (·.isNamed) → ⟨above ++ before, x⟩ ∈ occurrences above n
  | mk m children, h, way, start => by
    rcases before with _ | ⟨first, before⟩
    · obtain rfl : x = mk m children := (List.cons_prefix_cons.mp start).1
      rw [List.append_nil]
      exact self_mem_occurrences above _
    rw [List.cons_append, List.cons_prefix_cons] at start
    obtain ⟨rfl, start⟩ := start
    rcases List.mem_cons.mp h with rfl | mem
    · obtain rfl : between = [] := by simpa [Occurrence.way] using way
      simp at start
    rcases between with _ | ⟨child, between⟩
    · simp at start
    have named : child.isNamed = true := by
      by_contra unnamed
      simp [unnamed] at start
    rw [List.takeWhile_cons_of_pos named] at start
    have below := mem_occurrencesIn_of_start children mem (by simpa using way) named start
    rw [List.append_assoc, List.singleton_append] at below
    exact List.mem_cons_of_mem _ below

@[inherit_doc mem_occurrences_of_start]
theorem mem_occurrencesIn_of_start {n : Node} {above between before : List Node} :
    ∀ nodes : List Node, o ∈ placesIn above nodes → o.way = above ++ n :: between →
      n.isNamed = true → before ++ [x] <+: n :: between.takeWhile (·.isNamed) →
      ⟨above ++ before, x⟩ ∈ occurrencesIn above nodes
  | first :: rest, h, way, named, start => by
    rcases List.mem_append.mp h with mem | mem
    · obtain ⟨between', way'⟩ := way_of_mem_places first mem
      obtain ⟨rfl, rfl⟩ : first = n ∧ between' = between := by simpa [way] using way'.symm
      have here := mem_occurrences_of_start first mem way start
      exact List.mem_append_left _ (by rwa [if_pos named])
    · exact List.mem_append_right _ (mem_occurrencesIn_of_start rest mem way named start)

end

mutual

theorem way_of_mem_occurrences {above : List Node} :
    ∀ n : Node, o ∈ occurrences above n →
      ∃ between, o.way = above ++ n :: between ∧ ∀ x ∈ between, x.isNamed = true
  | mk m children, h => by
    rcases List.mem_cons.mp h with rfl | mem
    · exact ⟨[], rfl, fun x mem => by cases mem⟩
    · obtain ⟨child, between, way, named, all⟩ := way_of_mem_occurrencesIn children mem
      exact ⟨child :: between, by simpa using way, List.forall_mem_cons.mpr ⟨named, all⟩⟩

theorem way_of_mem_occurrencesIn {above : List Node} :
    ∀ nodes : List Node, o ∈ occurrencesIn above nodes →
      ∃ n between, o.way = above ++ n :: between ∧ n.isNamed = true ∧
        ∀ x ∈ between, x.isNamed = true
  | n :: rest, h => by
    rcases List.mem_append.mp h with mem | mem
    · split at mem
      next named =>
        obtain ⟨between, way, all⟩ := way_of_mem_occurrences n mem
        exact ⟨n, between, way, named, all⟩
      next => cases mem
    · exact way_of_mem_occurrencesIn rest mem

end

mutual

theorem mem_preorder_of_above {above : List Node} :
    ∀ n : Node, o ∈ occurrences above n → ∀ outer ∈ o.above,
      outer ∈ above ∨ o.node ∈ outer.preorder
  | mk m children, h, outer, ho => by
    rcases List.mem_cons.mp h with rfl | mem
    · exact .inl ho
    rcases mem_preorder_of_aboveIn children mem outer ho with known | below
    · rcases List.mem_append.mp known with known | here
      · exact .inl known
      · rw [List.mem_singleton.mp here]
        exact .inr (mem_preorder_of_mem_occurrences _ h).1
    · exact .inr below

theorem mem_preorder_of_aboveIn {above : List Node} :
    ∀ nodes : List Node, o ∈ occurrencesIn above nodes → ∀ outer ∈ o.above,
      outer ∈ above ∨ o.node ∈ outer.preorder
  | n :: rest, h, outer, ho => by
    rcases List.mem_append.mp h with mem | mem
    · split at mem
      next => exact mem_preorder_of_above n mem outer ho
      next => cases mem
    · exact mem_preorder_of_aboveIn rest mem outer ho

end

end Node

/-- As much of a way down as a walk goes: from the top on through named nodes only. -/
def Node.walked : List Node → List Node
  | [] => []
  | root :: rest => root :: rest.takeWhile (·.isNamed)

namespace Script

open Node

variable {s : Source} {n root : Node} {above path nodes : List Node} {o : Occurrence}

mutual

theorem decisions_eq_countP : ∀ n : Node, decisions n = n.preorder.countP isDecision
  | .mk m children => by
    rw [decisions, preorder, List.countP_cons, decisionsIn_eq_countP, Nat.add_comm]

theorem decisionsIn_eq_countP :
    ∀ nodes : List Node, decisionsIn nodes = (preorderAll nodes).countP isDecision
  | [] => rfl
  | n :: rest => by
    rw [decisionsIn, preorderAll, List.countP_append, decisions_eq_countP, decisionsIn_eq_countP]

end

theorem decisions_le (below : n ∈ root.preorder) : decisions n ≤ decisions root := by
  rw [decisions_eq_countP, decisions_eq_countP]
  exact (preorder_sublist root below).countP_le

theorem complexity_eq (few : decisions n < maxDecisions) : complexity n = 1 + decisions n := by
  have bound : decisions n < 4294967295 := few
  have least : min (decisions n) maxDecisions = decisions n := Nat.min_eq_left (Nat.le_of_lt few)
  rw [complexity, least, UInt32.toNat_add, UInt32.toNat_ofNat']
  simp only [UInt32.reduceToNat]
  omega

/-- Whether a node is a function that a survey records, if a walk comes to it. -/
def isRecorded (n : Node) : Bool := n.isAny functionDeclarations && (n.child? .name).isSome

/-- The functions that a survey records. -/
def recordedFunctions (root : Node) : List Occurrence :=
  (occurrences [] root).filter fun o => isRecorded o.node

/-- Whether no function that is recorded stands above. -/
def isOutermost (o : Occurrence) : Bool := !o.above.any isRecorded

/-- Whether a place is in a function that is recorded. -/
def isInside (o : Occurrence) : Bool := (walked o.way).any isRecorded

/-- Whether a walk comes all the way down. -/
def IsWay (path : List Node) : Prop :=
  ∃ root rest, path = root :: rest ∧ ∀ n ∈ rest, n.isNamed = true

theorem IsWay.concat (way : IsWay path) (named : n.isNamed = true) : IsWay (path ++ [n]) := by
  obtain ⟨root, rest, rfl, all⟩ := way
  refine ⟨root, rest ++ [n], rfl, fun x mem => ?_⟩
  rcases List.mem_append.mp mem with mem | mem
  · exact all x mem
  · exact List.mem_singleton.mp mem ▸ named

theorem IsWay.walked_append (way : IsWay path) (further : List Node) :
    walked (path ++ further) = path ++ further.takeWhile (·.isNamed) := by
  obtain ⟨root, rest, rfl, all⟩ := way
  rw [List.cons_append, walked, List.takeWhile_append_of_pos all, List.cons_append]

theorem isInside_iff (mem : o ∈ places [] root) :
    isInside o = true ↔ ∃ f ∈ recordedFunctions root, f.way <+: o.way := by
  obtain ⟨between, way⟩ := way_of_mem_places root mem
  rw [List.nil_append] at way
  constructor
  · intro inside
    rw [isInside, way, List.any_eq_true] at inside
    obtain ⟨x, here, recorded⟩ := inside
    obtain ⟨before, after, eq⟩ := List.append_of_mem here
    have start : before ++ [x] <+: root :: between.takeWhile (·.isNamed) :=
      ⟨after, by rw [List.append_assoc]; exact eq.symm⟩
    refine ⟨⟨before, x⟩, List.mem_filter.mpr
      ⟨mem_occurrences_of_start root mem way start, recorded⟩, ?_⟩
    have whole : root :: between.takeWhile (·.isNamed) <+: o.way :=
      way ▸ List.cons_prefix_cons.mpr ⟨rfl, List.takeWhile_prefix _⟩
    exact start.trans whole
  · rintro ⟨f, found, further, eq⟩
    obtain ⟨reached, recorded⟩ := List.mem_filter.mp found
    obtain ⟨between, way, named⟩ := way_of_mem_occurrences root reached
    have walks : IsWay f.way := ⟨root, between, way, named⟩
    rw [isInside, ← eq, walks.walked_append]
    exact List.any_eq_true.mpr ⟨f.node, by simp [Occurrence.way], recorded⟩

theorem countP_places_of_isRecorded (way : IsWay (above ++ [n])) (recorded : isRecorded n = true) :
    (places above n).countP (fun o => isDecision o.node && !isInside o) = 0 := by
  rw [List.countP_eq_zero]
  intro o mem outside
  obtain ⟨between, eq⟩ := way_of_mem_places n mem
  have inside : isInside o = true := by
    rw [isInside, eq, ← List.singleton_append, ← List.append_assoc, way.walked_append]
    exact List.any_eq_true.mpr ⟨n, by simp, recorded⟩
  rw [inside, Bool.not_true, Bool.and_false] at outside
  cases outside

theorem countP_places_of_unnamed (way : IsWay path) (free : ∀ x ∈ path, isRecorded x = false)
    (unnamed : n.isNamed = false) :
    (places path n).countP (fun o => isDecision o.node && !isInside o) = decisions n := by
  rw [decisions_eq_countP, ← map_node_places path n, List.countP_map]
  refine List.countP_congr fun o mem => ?_
  obtain ⟨between, eq⟩ := way_of_mem_places n mem
  have outside : isInside o = false := by
    rw [isInside, eq, way.walked_append, List.takeWhile_cons_of_neg (by simpa using unnamed),
      List.append_nil, List.any_eq_false]
    exact fun x mem => Bool.not_eq_true _ ▸ free x mem
  simp [outside]

theorem filter_isOutermost_below (recorded : isRecorded n = true) (nodes : List Node) :
    (occurrencesIn (above ++ [n]) nodes).filter (fun o => isRecorded o.node && isOutermost o) = [] := by
  rw [List.filter_eq_nil_iff]
  intro o mem outermost
  obtain ⟨-, between, eq, -⟩ := mem_preorderAll_of_mem_occurrencesIn nodes mem
  have below : o.above.any isRecorded = true := List.any_eq_true.mpr ⟨n, by simp [eq], recorded⟩
  rw [isOutermost, below, Bool.not_true, Bool.and_false] at outermost
  cases outermost

mutual

/-- Where a walk comes to a node and has met no function, the decisions are those of the outermost
functions and those outside them. -/
theorem decisions_split {above : List Node} :
    ∀ n : Node, IsWay (above ++ [n]) → (∀ x ∈ above, isRecorded x = false) →
      decisions n =
        sumOf (fun o => decisions o.node)
          ((occurrences above n).filter fun o => isRecorded o.node && isOutermost o) +
        (places above n).countP fun o => isDecision o.node && !isInside o
  | .mk m children, way, free => by
    have outermost : isOutermost ⟨above, .mk m children⟩ = true := by
      rw [isOutermost, List.any_eq_false.mpr fun x mem => Bool.not_eq_true _ ▸ free x mem]
      rfl
    cases recorded : isRecorded (.mk m children) with
    | true =>
      rw [countP_places_of_isRecorded way recorded, occurrences,
        List.filter_cons_of_pos (by rw [recorded, outermost]; rfl),
        filter_isOutermost_below recorded]
      rfl
    | false =>
      have free' : ∀ x ∈ above ++ [.mk m children], isRecorded x = false := by
        intro x mem
        rcases List.mem_append.mp mem with mem | mem
        · exact free x mem
        · exact List.mem_singleton.mp mem ▸ recorded
      have outside : isInside ⟨above, .mk m children⟩ = false := by
        have whole := way.walked_append []
        rw [List.append_nil, List.takeWhile_nil, List.append_nil] at whole
        rw [isInside, Occurrence.way, whole, List.any_eq_false]
        exact fun x mem => Bool.not_eq_true _ ▸ free' x mem
      rw [occurrences, places, List.filter_cons_of_neg (by rw [recorded]; exact Bool.false_ne_true),
        List.countP_cons, decisions, decisionsIn_split children way free', outside, Bool.not_false,
        Bool.and_true]
      dsimp only
      omega

@[inherit_doc decisions_split]
theorem decisionsIn_split {path : List Node} :
    ∀ nodes : List Node, IsWay path → (∀ x ∈ path, isRecorded x = false) →
      decisionsIn nodes =
        sumOf (fun o => decisions o.node)
          ((occurrencesIn path nodes).filter fun o => isRecorded o.node && isOutermost o) +
        (placesIn path nodes).countP fun o => isDecision o.node && !isInside o
  | [], _, _ => rfl
  | n :: rest, way, free => by
    have others := decisionsIn_split rest way free
    rw [decisionsIn, occurrencesIn, placesIn, List.filter_append, List.countP_append]
    cases named : n.isNamed with
    | true =>
      rw [if_pos rfl, decisions_split n (way.concat named) free, others, sumOf_append]
      omega
    | false =>
      rw [if_neg Bool.false_ne_true, countP_places_of_unnamed way free named, others, List.filter_nil,
        List.nil_append]
      omega

end

/-- Functions that are in no other function that is recorded. -/
def outermostFunctions (root : Node) : List Occurrence := (recordedFunctions root).filter isOutermost

/-- The decisions of a script that are in no function. -/
def looseDecisions (root : Node) : Nat :=
  (places [] root).countP fun o => isDecision o.node && !isInside o

theorem decisions_eq_outermost (root : Node) :
    decisions root =
      sumOf (fun o => decisions o.node) (outermostFunctions root) + looseDecisions root := by
  have split := decisions_split root (⟨root, [], rfl, by simp⟩ : IsWay ([] ++ [root])) (by simp)
  rw [split, outermostFunctions, recordedFunctions, List.filter_filter, looseDecisions]
  simp only [Bool.and_comm]

theorem note_functions (top : Bool) (n : Node) (survey : FileSurvey) :
    (note s top n survey).functions = survey.functions ++
      if n.isAny functionDeclarations then (functionRecord? s n).toList else [] := by
  unfold note
  simp only [isA_eq_isAny]
  split
  next isImport => rw [isAny_eq_false isImport (by decide)]; simp
  split
  next isExport => rw [isAny_eq_false isExport (by decide)]; simp
  split
  next => rfl
  next =>
    rw [List.append_nil]
    split
    next => rfl
    split <;> rfl

theorem functionRecord?_of_isRecorded (recorded : isRecorded n = true) :
    ∃ f, functionRecord? s n = some f ∧ f.complexity = complexity n := by
  obtain ⟨name, eq⟩ := Option.isSome_iff_exists.mp (Bool.and_eq_true_iff.mp recorded).2
  rw [functionRecord?, eq]
  exact ⟨_, rfl, rfl⟩

theorem map_note_functions (top : Bool) (o : Occurrence) (survey : FileSurvey) :
    (note s top o.node survey).functions.map some = survey.functions.map some ++
      ([o].filter fun o => isRecorded o.node).map fun o => functionRecord? s o.node := by
  rw [note_functions, List.map_append]
  cases recorded : isRecorded o.node with
  | true =>
    obtain ⟨f, eq, -⟩ := functionRecord?_of_isRecorded (s := s) recorded
    rw [if_pos (Bool.and_eq_true_iff.mp recorded).1, List.filter_cons_of_pos (by exact recorded),
      List.filter_nil, List.map_singleton, eq]
    rfl
  | false =>
    rw [List.filter_cons_of_neg (by simpa using recorded)]
    split
    next isFunction =>
      rw [isRecorded, isFunction, Bool.true_and] at recorded
      have nameless : o.node.child? .name = none :=
        Option.isNone_iff_eq_none.mp (Option.isSome_eq_false_iff.mp recorded)
      rw [functionRecord?, nameless]
      rfl
    next => rfl

mutual

/-- Wherever a walk begins, it records the functions that it comes to. -/
theorem walk_functions (top : Bool) (above : List Node) (survey : FileSurvey) :
    ∀ n : Node, (walk s top n survey).functions.map some = survey.functions.map some ++
      ((occurrences above n).filter fun o => isRecorded o.node).map fun o =>
        functionRecord? s o.node
  | .mk m children => by
    rw [walk, walkAll_functions _ (above ++ [.mk m children]), occurrences,
      map_note_functions top ⟨above, .mk m children⟩, List.append_assoc, ← List.map_append,
      ← List.filter_append, List.singleton_append]

@[inherit_doc walk_functions]
theorem walkAll_functions (top : Bool) (above : List Node) (survey : FileSurvey) :
    ∀ nodes : List Node, (walkAll s top nodes survey).functions.map some =
      survey.functions.map some ++
        ((occurrencesIn above nodes).filter fun o => isRecorded o.node).map fun o =>
          functionRecord? s o.node
  | [] => by simp [walkAll, occurrencesIn]
  | n :: rest => by
    rw [walkAll, walkAll_functions top above, occurrencesIn, List.filter_append, List.map_append]
    cases named : n.isNamed with
    | true => rw [if_pos rfl, if_pos rfl, walk_functions top above, List.append_assoc]
    | false => simp

end

theorem surveyTree_functions (s : Source) (root : Node) :
    (surveyTree s root).functions.map some =
      (recordedFunctions root).map fun o => functionRecord? s o.node :=
  walk_functions true [] {} root

/-- How the complexity of a script is made up. -/
structure Decomposes (s : Source) (root : Node) : Prop where
  exact : ∀ n ∈ root.preorder, complexity n = 1 + n.preorder.countP isDecision
  file : (surveyTree s root).complexity = complexity root
  functions : (surveyTree s root).functions.map some =
    (recordedFunctions root).map fun o => functionRecord? s o.node
  sum : (surveyTree s root).complexity - 1 =
    sumOf (fun o => complexity o.node - 1) (outermostFunctions root) + looseDecisions root
  inside : ∀ o ∈ places [] root,
    isInside o = true ↔ ∃ f ∈ recordedFunctions root, f.way <+: o.way
  bounds : ∀ f ∈ (surveyTree s root).functions,
    1 ≤ f.complexity ∧ f.complexity ≤ (surveyTree s root).complexity
  nested : ∀ o ∈ recordedFunctions root, ∀ outer ∈ o.above, isRecorded outer = true →
    complexity o.node ≤ complexity outer

theorem complexity_decomposes (s : Source) (root : Node)
    (few : root.preorder.countP isDecision < Nat.pow 2 32 - 1) : Decomposes s root := by
  have all : ∀ n ∈ root.preorder, complexity n = 1 + decisions n := by
    intro n below
    have fewer := decisions_le below
    have here : decisions root < maxDecisions := by rwa [decisions_eq_countP]
    exact complexity_eq (by omega)
  have reached : ∀ o ∈ recordedFunctions root, o.node ∈ root.preorder := by
    intro o found
    exact (mem_preorder_of_mem_occurrences root (List.mem_filter.mp found).1).1
  have whole := all root (self_mem_preorder root)
  refine ⟨fun n below => ?_, rfl, surveyTree_functions s root, ?_, fun o => isInside_iff, ?_, ?_⟩
  · rw [all n below, decisions_eq_countP]
  · have parts : sumOf (fun o => complexity o.node - 1) (outermostFunctions root) =
        sumOf (fun o => decisions o.node) (outermostFunctions root) := by
      refine sumOf_congr fun o found => ?_
      have here := all o.node (reached o (List.mem_filter.mp found).1)
      omega
    have split := decisions_eq_outermost root
    have file : (surveyTree s root).complexity = complexity root := rfl
    omega
  · intro f mem
    replace mem : some f ∈ (surveyTree s root).functions.map some := List.mem_map_of_mem mem
    rw [surveyTree_functions] at mem
    obtain ⟨o, found, eq⟩ := List.mem_map.mp mem
    obtain ⟨f', eq', value⟩ :=
      functionRecord?_of_isRecorded (s := s) (List.mem_filter.mp found).2
    obtain rfl : f' = f := Option.some.inj (eq'.symm.trans eq)
    have here := all o.node (reached o found)
    have fewer := decisions_le (reached o found)
    have file : (surveyTree s root).complexity = complexity root := rfl
    omega
  · intro o found outer above _
    have mem := (List.mem_filter.mp found).1
    obtain ⟨inside, between, eq, within⟩ := mem_preorder_of_mem_occurrences root mem
    have here := all o.node inside
    have there := all outer (within outer (by simpa [eq] using above))
    rcases mem_preorder_of_above root mem outer above with none | below
    · cases none
    · have fewer := decisions_le below
      omega

def nestedText : String :=
  "function f() \x7b function g() \x7b if (a); \x7d b && c; \x7d d || e;"

def nestedTree : Node :=
  let operation (start : Nat) (operator : String) :=
    phrase .expressionStatement none start (start + 7) [
      phrase .binaryExpression none start (start + 6) [
        phrase .identifier (some .left) start (start + 1) [],
        word operator (some .operator) (start + 2),
        phrase .identifier (some .right) (start + 5) (start + 6) []],
      word ";" none (start + 6)]
  let function (start stop : Nat) (body : List Node) :=
    phrase .functionDeclaration none start stop [
      word "function" none start,
      phrase .identifier (some .name) (start + 9) (start + 10) [],
      phrase .formalParameters (some .parameters) (start + 10) (start + 12) [
        word "(" none (start + 10), word ")" none (start + 11)],
      phrase .statementBlock (some .body) (start + 13) stop
        ([word "\x7b" none (start + 13)] ++ body ++ [word "\x7d" none (stop - 1)])]
  phrase .program none 0 57 [
    function 0 49 [
      function 15 39 [
        phrase .ifStatement none 30 37 [
          word "if" none 30,
          phrase .parenthesizedExpression (some .condition) 33 36 [
            word "(" none 33, phrase .identifier none 34 35 [], word ")" none 35],
          phrase .emptyStatement (some .consequence) 36 37 [word ";" none 36]]],
      operation 40 "&&"],
    operation 50 "||"]

theorem complexity_decomposes_nested :
    nestedTree.preorder.countP isDecision < Nat.pow 2 32 - 1 ∧
      Decomposes (.ofString nestedText) nestedTree ∧
      (surveyTree (.ofString nestedText) nestedTree).functions =
        [⟨"f", [], 3, 1⟩, ⟨"g", [], 2, 1⟩] ∧
      (outermostFunctions nestedTree).map (fun o => complexity o.node) = [3] ∧
      looseDecisions nestedTree = 1 ∧ complexity nestedTree = 4 := by
  have few : nestedTree.preorder.countP isDecision < Nat.pow 2 32 - 1 := by decide +kernel
  refine ⟨few, complexity_decomposes _ _ few, ?_, ?_, ?_, ?_⟩ <;> decide +kernel

end Script

end CodeSurvey
