import CodeSurvey.Parsing.Stack

namespace CodeSurvey.Parsing

open Automaton Lexis Grammar

/-- The state of a parser between two steps. -/
structure Machine where
  automaton : Explored
  vertices : Vertices
  heads : Array Head
  finished : Option Fragment := none
  acceptCount : Nat := 0

namespace Machine

def head (m : Machine) (v : Nat) : Head := m.heads.getD v default

def vertex (m : Machine) (v : Nat) : Vertex := m.vertices.getD (m.head v).vertex default

def state (m : Machine) (v : Nat) : Nat := (m.vertex v).state

def place (m : Machine) (v : Nat) : Nat := (m.vertex v).place

def count (m : Machine) : Nat := m.heads.size

/-- The cost of a reading. One that is in trouble is charged for getting out of it. -/
def cost (m : Machine) (v : Nat) : Nat :=
  let top := m.vertex v
  let begins := top.state = 0 && (top.links[0]?.map (·.fragment.isNone)).getD false
  top.cost + if (m.head v).isPaused || begins then costs.recovery else 0

def weightSinceError (m : Machine) (v : Nat) : Nat := (m.vertex v).weight - (m.head v).weightAtError

/-- Corrects the weights that readings had at their last errors where more has been taken back since
then. -/
def refresh (m : Machine) : Machine :=
  { m with heads := m.heads.map fun h => { h with
      weightAtError := min h.weightAtError (m.vertices.getD h.vertex default).weight } }

def modifyHead (m : Machine) (v : Nat) (f : Head → Head) : Machine :=
  { m with heads := m.heads.modify v f }

def halt (m : Machine) (v : Nat) : Machine := m.modifyHead v ({ · with status := .halted })

def remove (m : Machine) (v : Nat) : Machine := { m with heads := m.heads.eraseIdxIfInBounds v }

/-- Puts a reading in place of an earlier one. -/
def renumber (m : Machine) (source target : Nat) : Machine :=
  if source = target then m
  else
    let old := m.head target
    let new := m.head source
    let new := { new with summary := new.summary <|> old.summary }
    { m with heads := (m.heads.setIfInBounds target new).eraseIdxIfInBounds source }

def push (t : Task) (m : Machine) (v : Nat) (fragment : Option Fragment) (state : Nat) : Machine :=
  let vertices := m.vertices.on t (m.head v).vertex fragment state
  let top := vertices.size - 1
  let weight := (vertices.getD top default).weight
  { m with
    vertices
    heads := m.heads.modify v fun h => { h with
      vertex := top
      weightAtError := if fragment.isNone then weight else h.weightAtError } }

def canMerge (m : Machine) (a b : Nat) : Bool :=
  (m.head a).isActive && (m.head b).isActive && (m.vertex a).agrees (m.vertex b)

/-- Merges a reading into another if they agree. -/
def merge? (t : Task) (m : Machine) (a b : Nat) : Option Machine :=
  if m.canMerge a b then
    let top := (m.head a).vertex
    let vertices := (m.vertex b).links.foldl
      (fun vs l => addLink t (vs.size + 1) vs top l) m.vertices
    let m := { m with vertices }
    let m := if m.state a = 0 then
        m.modifyHead a ({ · with weightAtError := (m.vertex a).weight })
      else m
    some (m.remove b)
  else none

/-- Adds a reading whose top is a vertex further down in another. -/
def branch (m : Machine) (v vertex : Nat) : Machine :=
  let new : Head := { vertex, weightAtError := (m.head v).weightAtError }
  { m with heads := m.heads.push new }

/-- Whether anything was read since the last error: a fragment with text, or one that makes nodes
without new errors. -/
def progressed (m : Machine) (v : Nat) : Bool :=
  let h := m.head v
  let top := m.vertices.getD h.vertex default
  if top.cost = 0 then true else go h.weightAtError m.vertices (m.vertices.size) top
where
  go (weightAtError : Nat) (vs : Vertices) : Nat → Vertex → Bool
    | 0, _ => false
    | fuel + 1, x =>
      let first := x.links.getD 0 default
      match first.fragment with
      | none => false
      | some f =>
        if f.outline.origin < f.outline.stop then true
        else if x.weight > weightAtError && f.cost = 0 then
          go weightAtError vs fuel (vs.getD first.vertex default)
        else false

def target (m : Machine) (state symbol : Nat) : Nat × Machine :=
  let (s, automaton) := m.automaton.target state symbol
  (s, { m with automaton })

def actions (m : Machine) (state terminal : Nat) : List Action × Machine :=
  let (a, automaton) := m.automaton.actions state terminal
  (a, { m with automaton })

def bestPhrase (t : Task) (production place : Nat) (ways : List (List Fragment)) :
    Fragment × List Fragment :=
  let compose := fun way =>
    let (parts, trailing) := withoutTrailingExtras way
    (t.compose (.symbol (t.language.symbolOf (t.language.production production))) (some production)
      false 0 parts place, trailing)
  match ways with
  | [] => compose []
  | first :: rest => rest.foldl (fun best way =>
      let next := compose way
      if best.1.isBettered next.1 then next else best) (compose first)

/-- Merges a reading into the first earlier one that agrees with it, `except` apart. -/
def mergeEarlier (t : Task) (m : Machine) (except v : Nat) : Option Machine :=
  (List.range v).findSome? fun j => if j = except then none else m.merge? t j v

/-- Completes a phrase: takes its parts off the stack in every possible way and pushes the phrase
on what is left. The new readings come last; the first of them is given. -/
def reduce (t : Task) (m : Machine) (v production : Nat) : Option Nat × Machine :=
  let initial := m.count
  let p := t.language.production production
  let groups := m.vertices.below (m.head v).vertex p.steps.size
  let m := groups.foldl (fun m (vertex, _) => m.branch v vertex) m
  let halted := (m.heads.filter (·.isHalted)).size
  let step := fun (m, reading) (_, ways) =>
    if reading > limits.readings + limits.overflow + halted then (m.remove reading, reading)
    else
      let (phrase, trailing) := bestPhrase t production (m.place v) ways
      let phrase := match phrase with
        | .mk o parts => Fragment.mk { o with dynamic := o.dynamic + p.dynamic } parts
      let (next, m) := m.target (m.state reading) (t.language.symbolOf p)
      let m := m.push t reading (some phrase) next
      let m := trailing.foldl (fun m f => m.push t reading (some f) next) m
      match m.mergeEarlier t v reading with
      | some m => (m, reading)
      | none => (m, reading + 1)
  let (m, _) := groups.foldl step (m, initial)
  (if initial < m.count then some initial else none, m)

structure Standing where
  cost : Nat
  weight : Nat
  dynamic : Int
  inError : Bool

def standing (m : Machine) (v : Nat) : Standing where
  cost := m.cost v + if (m.head v).isPaused then costs.passedTree else 0
  weight := m.weightSinceError v
  dynamic := (m.vertex v).dynamic
  inError := (m.head v).isPaused || m.state v = 0

/-- How two readings compare. `take` is so much better that the other is given up. -/
inductive Comparison where
  | takeLeft
  | preferLeft
  | equal
  | preferRight
  | takeRight
deriving DecidableEq, Repr

def Standing.compare (a b : Standing) : Comparison :=
  if !a.inError && b.inError then if a.cost < b.cost then .takeLeft else .preferLeft
  else if a.inError && !b.inError then if b.cost < a.cost then .takeRight else .preferRight
  else if a.cost < b.cost then
    if (b.cost - a.cost) * (1 + a.weight) > limits.costGap then .takeLeft else .preferLeft
  else if b.cost < a.cost then
    if (a.cost - b.cost) * (1 + b.weight) > limits.costGap then .takeRight else .preferRight
  else if b.dynamic < a.dynamic then .preferLeft
  else if a.dynamic < b.dynamic then .preferRight
  else .equal

/-- Whether some other reading makes it pointless to go on with one at a given cost. -/
def betterExists (m : Machine) (v : Nat) (inError : Bool) (cost : Nat) : Bool :=
  (m.finished.map fun f => decide (f.cost ≤ cost)).getD false ||
    let mine : Standing := ⟨cost, m.weightSinceError v, (m.vertex v).dynamic, inError⟩
    (List.range m.count).any fun i =>
      i ≠ v && (m.head i).isActive && m.place v ≤ m.place i &&
        match mine.compare (m.standing i) with
        | .takeRight => true
        | .preferRight => m.canMerge i v
        | _ => false

/-- Ends a reading at the end of the text: everything on its stack becomes one tree, and the best
tree so far is kept. -/
def accept (t : Task) (m : Machine) (v : Nat) (finish : Fragment) : Machine :=
  let m := m.push t v (some finish) 1
  let trees := (m.vertices.toBottom (m.head v).vertex).flatMap (·.2)
  let m := trees.foldl (fun m parts =>
    let after := parts.reverse.takeWhile (·.extra)
    match parts.reverse.drop after.length with
    | [] => m
    | root :: before =>
      let whole := t.compose root.label root.outline.production false 0
        (before.reverse ++ root.parts ++ after.reverse) (m.place v)
      let better := match m.finished with
        | none => true
        | some known => known.isBettered whole
      { m with
        acceptCount := m.acceptCount + 1
        finished := if better then some whole else m.finished }) m
  m.halt v

end Machine

end CodeSurvey.Parsing
