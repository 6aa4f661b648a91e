import CodeSurvey.Automaton.Action
import Std.Data.TreeMap

namespace CodeSurvey.Automaton

open Grammar

structure State where
  items : ItemSet
  /-- For each phrase that may begin here, the terminals that may follow it. -/
  openFollow : Thunk (Array TerminalSet)
  valid : TerminalSet

instance : Inhabited State := ⟨⟨[], Thunk.pure #[], 0⟩⟩

def Table.openFollow (t : Table) (items : ItemSet) : Array TerminalSet :=
  let n := t.terminalCount
  let phrases := t.productions.phraseCount
  let direct := items.foldl (fun direct (item, follow) =>
    let next := t.nextOf item
    if next < n then direct
    else
      let after := t.nextOf (item + 1)
      direct.modify (next - n) (· ||| if after = 0 then follow else t.firstOf after))
    (Array.replicate phrases 0)
  phrases.fold (fun phrase _ all =>
    match direct.getD phrase 0 with
    | 0 => all
    | follow => match t.openings[phrase]? with
      | none => all
      | some openings => openings.get.foldl (fun all o =>
        all.modify o.phrase (· ||| o.follow ||| if o.inherits then follow else 0)) all)
    (Array.replicate phrases 0)

def Table.validOf (t : Table) (extras : TerminalSet) (items : ItemSet) : TerminalSet :=
  items.foldl (fun valid (item, follow) =>
    valid ||| if t.nextOf item = 0 then follow else t.firstOf (t.nextOf item)) extras

/-- The items before any text: that of the whole, and the productions without symbols. -/
def Table.startItems (t : Table) : ItemSet :=
  let blanks := t.start.toList.filter fun item => t.nextOf item = 0
  (blanks.map (·, 1)) ++ [(t.start.getD t.whole 0, 1)]

structure Explored where
  table : Table
  /-- Terminals that may stand anywhere. -/
  extras : TerminalSet
  /-- Terminals that are read while nothing fits. -/
  recovering : TerminalSet
  states : Array State
  known : Std.TreeMap ItemSet Nat ItemSet.compare
  targets : Std.TreeMap Nat Nat compare
  decided : Std.TreeMap Nat (List Action) compare

namespace Explored

def stateAt (e : Explored) (s : Nat) : State := e.states.getD s default

def intern (e : Explored) (items : ItemSet) : Nat × Explored :=
  match e.known[items]? with
  | some s => (s, e)
  | none =>
    let s := e.states.size
    let t := e.table
    let state : State := ⟨items, Thunk.mk fun _ => t.openFollow items, t.validOf e.extras items⟩
    (s, { e with states := e.states.push state, known := e.known.insert items s })

def step (e : Explored) (s symbol : Nat) : ItemSet :=
  let t := e.table
  let state := e.stateAt s
  let follow := state.openFollow.get
  let opened := (t.openers.getD symbol []).filterMap fun p =>
    match follow.getD (t.productions.all.getD p default).phrase 0 with
    | 0 => none
    | f => some (t.start.getD p 0 + 1, f)
  opened ++ state.items.filterMap fun (item, f) =>
    if t.nextOf item = symbol then some (item + 1, f) else none

def target (e : Explored) (s symbol : Nat) : Nat × Explored :=
  let key := s * e.table.symbolCount + symbol
  match e.targets[key]? with
  | some s => (s, e)
  | none =>
    match e.step s symbol with
    | [] => (0, { e with targets := e.targets.insert key 0 })
    | items =>
      let (s, e) := e.intern items
      (s, { e with targets := e.targets.insert key s })

def actions (e : Explored) (s terminal : Nat) : List Action × Explored :=
  if s = 0 then (if e.recovering.testBit terminal then [.recover] else [], e)
  else
    let key := s * e.table.symbolCount + terminal
    match e.decided[key]? with
    | some a => (a, e)
    | none =>
      let a := e.table.actions (e.stateAt s).items e.extras terminal
      (a, { e with decided := e.decided.insert key a })

def valid (e : Explored) (s : Nat) : TerminalSet :=
  if s = 0 then e.recovering else (e.stateAt s).valid

def start (t : Table) (extras recovering : TerminalSet) : Explored :=
  let empty : Explored :=
    { table := t, extras, recovering, states := #[default], known := ∅, targets := ∅, decided := ∅ }
  (empty.intern (t.startItems)).2

end Explored

end CodeSurvey.Automaton
