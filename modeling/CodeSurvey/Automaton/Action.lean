import CodeSurvey.Automaton.Table

namespace CodeSurvey.Automaton

open Grammar

/-- Items with the terminals that may follow, ordered by place and then by production. -/
abbrev ItemSet := List (Nat × TerminalSet)

def ItemSet.compare : ItemSet → ItemSet → Ordering
  | [], [] => .eq
  | [], _ :: _ => .lt
  | _ :: _, [] => .gt
  | (i, x) :: a, (j, y) :: b =>
    (Ord.compare i j).then ((Ord.compare x y).then (ItemSet.compare a b))

/-- What to do with the terminal that comes next. -/
inductive Action where
  /-- Take it. In the middle of a repetition this is only remembered. -/
  | shift (inRepetition : Bool)
  /-- Take it as something that may stand anywhere. -/
  | skip
  /-- A phrase is complete. -/
  | reduce (production : Nat)
  /-- The whole text is read. -/
  | accept
  /-- Nothing fits; look for a place from which to go on. -/
  | recover
deriving DecidableEq, Repr, Inhabited

/-- Whether a rung of an ordering speaks of a precedence or of one of the phrases it belongs to. -/
def rungMatches (r : Rung) (p : Precedence) (phrases : List Category) : Bool :=
  match r with
  | .tier t => p = .tier t
  | .category c => phrases.contains c

def compareByRungs (matchesLeft matchesRight : Rung → Bool) (sawLeft sawRight : Bool) :
    List Rung → Option Ordering
  | [] => none
  | r :: rest =>
    let l := matchesLeft r
    let g := matchesRight r
    if l && !g && (sawRight || g) then some .lt
    else if g && !l && (sawLeft || l) then some .gt
    else compareByRungs matchesLeft matchesRight (sawLeft || l) (sawRight || g) rest

/-- Compares two precedences, each with the phrases it belongs to. Numbers compare as numbers, with
zero for none; all else only by the orderings of the grammar, and is otherwise equal. -/
def comparePrecedence (orderings : List (List Rung)) (left : Precedence)
    (leftPhrases : List Category) (right : Precedence) (rightPhrases : List Category) :
    Ordering :=
  let named := (orderings.findSome? (compareByRungs (rungMatches · left leftPhrases)
    (rungMatches · right rightPhrases) false false)).getD .eq
  match left, right with
  | .level l, .level r => if l ≠ 0 ∨ r ≠ 0 then compare l r else named
  | .level l, .none => if l ≠ 0 then compare l 0 else named
  | .none, .level r => if r ≠ 0 then compare 0 r else named
  | _, _ => named

/-- The complete phrases that may be followed by a terminal, as far as precedence keeps them. -/
structure Reductions where
  productions : List Nat := []
  precedence : Precedence := .none
  phrases : List Category := []
  hasLeft : Bool := false
  hasRight : Bool := false
  hasNeither : Bool := false

namespace Table

variable (t : Table)

def stepBefore (item : Nat) : Option Step :=
  match t.place item with
  | 0 => none
  | n + 1 => (t.productionOf item).steps[n]?

def precedenceAt (item : Nat) : Precedence := ((t.stepBefore item).map (·.precedence)).getD .none

def associativityAt (item : Nat) : Option Associativity :=
  (t.stepBefore item).bind (·.associativity)

def phraseOf (item : Nat) : Nat := (t.productionOf item).phrase

def orderings : List (List Rung) := t.productions.definition.orderings

/-- Adds a complete phrase: a stronger one drives out the weaker. -/
def addReduction (r : Reductions) (item : Nat) : Reductions :=
  let precedence := t.precedenceAt item
  let category := t.categoryOf (t.phraseOf item)
  let production := t.production.getD item 0
  let kept : Option Reductions :=
    if r.productions.isEmpty then some { productions := [production] }
    else match comparePrecedence t.orderings precedence category.toList r.precedence r.phrases with
      | .gt => some { productions := [production] }
      | .eq => some { r with productions := r.productions ++ [production] }
      | .lt => none
  match kept with
  | none => r
  | some k =>
    let k := { k with
      precedence, phrases := (category.toList ++ k.phrases).eraseDups }
    match t.associativityAt item with
    | some .left => { k with hasLeft := true }
    | some .right => { k with hasRight := true }
    | none => { k with hasNeither := true }

def expects (terminal item : Nat) : Bool :=
  t.nextOf item ≠ 0 && (t.firstOf (t.nextOf item)).testBit terminal

/-- The complete phrases of a state that a terminal may follow. -/
def reductions (items : ItemSet) (terminal : Nat) : Reductions :=
  items.foldl (fun r (item, follow) =>
    if t.nextOf item = 0 && follow.testBit terminal then t.addReduction r item else r) {}

def contenders (items : ItemSet) (terminal : Nat) : List Nat :=
  (items.filter fun (item, follow) =>
    t.production.getD item 0 ≠ t.whole &&
      if t.nextOf item = 0 then follow.testBit terminal
      else t.place item > 0 && t.expects terminal item).map (·.1)

def reduceActions (r : Reductions) : List Action :=
  r.productions.map fun p => if p = t.whole then .accept else .reduce p

def resolve (items : ItemSet) (terminal : Nat) (r : Reductions) : List Action :=
  let contenders := t.contenders items terminal
  let phrases := contenders.map t.phraseOf
  let reduces := t.reduceActions r
  let phrase := phrases.headD 0
  if t.isRepetition phrase && phrases.all (· = phrase) then reduces ++ [.shift true]
  else
    let orders := (contenders.filter (t.nextOf · ≠ 0)).map fun item =>
      comparePrecedence t.orderings (t.precedenceAt item)
        (t.categoryOf (t.phraseOf item)).toList r.precedence r.phrases
    match orders.contains .gt, orders.contains .lt with
    | true, false => [.shift false]
    | false, true => reduces
    | true, true => reduces ++ [.shift false]
    | false, false =>
      match r.hasLeft, r.hasNeither, r.hasRight with
      | true, false, false => reduces
      | false, false, true => [.shift false]
      | _, _, _ => reduces ++ [.shift false]

def actions (items : ItemSet) (extras : TerminalSet) (terminal : Nat) : List Action :=
  let r := t.reductions items terminal
  if items.any fun (item, _) => t.expects terminal item then
    if r.productions.isEmpty then [.shift false] else t.resolve items terminal r
  else if r.productions.isEmpty then
    if extras.testBit terminal then [.skip] else []
  else t.reduceActions r

end Table

end CodeSurvey.Automaton
