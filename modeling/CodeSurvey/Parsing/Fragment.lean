import CodeSurvey.Parsing.Language

namespace CodeSurvey.Parsing

open Grammar Lexis

/-- What a fragment is: a symbol of the grammar, unreadable text, or text passed over on the way
through an error. -/
inductive Label where
  | symbol (n : Nat)
  | unreadable
  | passedOver
deriving DecidableEq, Repr, Inhabited

/-- The rank of a label when two readings are compared: errors come last. -/
def Label.rank : Label → Nat
  | symbol n => n
  | passedOver => 65534
  | unreadable => 65535

def Label.isError : Label → Bool
  | symbol _ => false
  | _ => true

structure Outline where
  label : Label
  /-- The production that a phrase is made by. -/
  production : Option Nat := none
  /-- Whether it may stand anywhere. -/
  extra : Bool := false
  missing : Bool := false
  isWord : Bool := false
  /-- The place where the blanks before it begin, and its extent. -/
  origin : Nat
  start : Nat
  stop : Nat
  cost : Nat := 0
  dynamic : Int := 0
  /-- How many nodes its parts make, and how many there are below them too. -/
  visibleParts : Nat := 0
  visibleBelow : Nat := 0
deriving Repr, Inhabited

inductive Fragment where
  | mk (outline : Outline) (parts : List Fragment)
deriving Inhabited

namespace Fragment

def outline : Fragment → Outline
  | mk o _ => o

def parts : Fragment → List Fragment
  | mk _ p => p

def label (f : Fragment) : Label := f.outline.label

def extra (f : Fragment) : Bool := f.outline.extra

def cost (f : Fragment) : Nat := f.outline.cost

def dynamic (f : Fragment) : Int := f.outline.dynamic

def ofToken (token : Token) (extra : Bool) : Fragment :=
  mk { label := match token.terminal with
         | some n => .symbol n
         | none => .unreadable
       extra, isWord := token.isWord
       origin := token.origin, start := token.start, stop := token.stop } []

end Fragment

/-- What readings with errors cost. -/
structure Costs where
  recovery : Nat := 500
  missing : Nat := 110
  passedTree : Nat := 100
  passedChar : Nat := 1
  passedLine : Nat := 30

def costs : Costs := {}

def Fragment.supposed (terminal place : Nat) : Fragment :=
  mk { label := .symbol terminal, missing := true, origin := place, start := place, stop := place
       cost := costs.missing + costs.recovery } []

/-- A text and the language that it is read in. -/
structure Task where
  language : Language
  source : Source

namespace Task

variable (t : Task)

def bytesBetween (a b : Nat) : Nat :=
  (t.source.positionAt b).byte - (t.source.positionAt a).byte

def rowsBetween (a b : Nat) : Nat := (t.source.positionAt b).row - (t.source.positionAt a).row

def isVisible (f : Fragment) : Bool :=
  match f.label with
  | .symbol n => t.language.isVisible n
  | .unreadable => true
  | .passedOver => false

structure Sum where
  cost : Nat := 0
  dynamic : Int := 0
  visibleParts : Nat := 0
  visibleBelow : Nat := 0
  place : Nat := 0

def addPart (inError : Bool) (steps : Array Step) (s : Sum) (f : Fragment) : Sum :=
  let o := f.outline
  let renamed := !o.extra && ((steps[s.place]?).bind (·.newKind)).isSome
  let shows := renamed || t.isVisible f
  let passed := if inError && !o.extra && !(o.label = .unreadable && f.parts.isEmpty) then
      if t.isVisible f then costs.passedTree else costs.passedTree * o.visibleParts
    else 0
  { cost := s.cost + passed + if o.label = .passedOver then 0 else o.cost
    dynamic := s.dynamic + o.dynamic
    visibleParts := s.visibleParts + if shows then 1 else o.visibleParts
    visibleBelow := s.visibleBelow + o.visibleBelow + if shows then 1 else 0
    place := if o.extra then s.place else s.place + 1 }

/-- Puts parts together. An error costs by the text that it covers. -/
def compose (label : Label) (production : Option Nat) (extra : Bool) (dynamic : Int)
    (parts : List Fragment) (place : Nat) : Fragment :=
  let steps := match production with
    | some n => (t.language.production n).steps
    | none => #[]
  let sum := parts.foldl (t.addPart label.isError steps) {}
  let first := (parts.head?.map (·.outline)).getD
    { label, origin := place, start := place, stop := place }
  let stop := (parts.getLast?.map (·.outline.stop)).getD place
  let own := if label.isError then
      costs.recovery + costs.passedChar * t.bytesBetween first.start stop +
        costs.passedLine * t.rowsBetween first.start stop
    else 0
  .mk { label, production, extra, origin := first.origin, start := first.start, stop
        cost := sum.cost + own, dynamic := sum.dynamic + dynamic
        visibleParts := sum.visibleParts, visibleBelow := sum.visibleBelow } parts

/-- How many nodes a fragment adds to a reading; text passed over counts as one. -/
def weight (f : Fragment) : Nat :=
  f.outline.visibleBelow + (if t.isVisible f then 1 else 0) +
    if f.label = .passedOver then 1 else 0

end Task

/-- Compares two readings symbol by symbol. -/
def Fragment.compare : Nat → Fragment → Fragment → Ordering
  | 0, _, _ => .eq
  | depth + 1, a, b =>
    (Ord.compare a.label.rank b.label.rank).then <|
      (Ord.compare a.parts.length b.parts.length).then <|
        (a.parts.zip b.parts).foldl (fun o (x, y) => o.then (Fragment.compare depth x y)) .eq

/-- Whether a second reading is better than a first: it costs less, or has the higher precedence,
or comes first by its symbols. -/
def Fragment.isBettered (first second : Fragment) : Bool :=
  if second.cost ≠ first.cost then second.cost < first.cost
  else if second.dynamic ≠ first.dynamic then first.dynamic < second.dynamic
  else first.cost > 0 || Fragment.compare (first.outline.stop + 64) first second = .gt

/-- Divides off the extras at the end. -/
def withoutTrailingExtras (parts : List Fragment) : List Fragment × List Fragment :=
  let trailing := parts.reverse.takeWhile (·.extra)
  (parts.take (parts.length - trailing.length), trailing.reverse)

end CodeSurvey.Parsing
