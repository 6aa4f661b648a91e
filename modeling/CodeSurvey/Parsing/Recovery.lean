import CodeSurvey.Parsing.Machine

namespace CodeSurvey.Parsing.Machine

open Automaton Lexis

def afterTerminal (m : Machine) (state terminal : Nat) : Nat × Machine :=
  let (actions, m) := m.actions state terminal
  match actions.getLast? with
  | some (.shift _) => m.target state terminal
  | some .skip => (state, m)
  | _ => (0, m)

/-- The productions that a state completes on some of the terminals, each phrase and length once,
and whether it takes one of them. -/
def completions (t : Task) (m : Machine) (state : Nat) (terminals : List Nat) :
    List Nat × Bool × Machine :=
  let sizeOf := fun p =>
    let production := t.language.production p
    (production.phrase, production.steps.size)
  terminals.foldl (fun (found, shifts, m) terminal =>
    let (actions, m) := m.actions state terminal
    actions.foldl (fun (found, shifts, m) a =>
      match a with
      | .reduce p =>
        if (sizeOf p).2 = 0 || found.any (sizeOf · = sizeOf p) then (found, shifts, m)
        else (found ++ [p], shifts, m)
      | .shift inRepetition => (found, shifts || !inRepetition, m)
      | .recover => (found, true, m)
      | _ => (found, shifts, m)) (found, shifts, m)) ([], false, m)

/-- A walk through the readings that reductions make: where it is, and whether a reading was found
that takes the terminal looked for. -/
structure ReductionWalk where
  machine : Machine
  reading : Nat
  round : Nat := 0
  takes : Bool := false

/-- One step of the walk. `start` is the reading it began with, `initial` the number of readings
then; with a `single` terminal a reading that cannot take it is given up. -/
def ReductionWalk.step (t : Task) (terminals : List Nat) (start initial : Nat) (single : Bool)
    (w : ReductionWalk) : ReductionWalk :=
  let v := w.reading
  let m := w.machine
  let size := m.count
  let w := { w with round := w.round + 1 }
  let merged := (List.range v).findSome? fun j => if j < initial then none else m.merge? t j v
  match merged with
  | some m => { w with machine := m }
  | none =>
    let (productions, shifts, m) := m.completions t (m.state v) terminals
    let (last, m) := productions.foldl (fun (_, m) p => m.reduce t v p) (none, m)
    let next := if v = start then size else v + 1
    match shifts, last with
    | true, _ => { w with machine := m, reading := next, takes := true }
    | false, some r =>
      if w.round ≤ limits.readings then { w with machine := m.renumber r v }
      else { w with machine := if single then m.remove v else m, reading := next }
    | false, none => { w with machine := if single then m.remove v else m, reading := next }

def ReductionWalk.run (t : Task) (terminals : List Nat) (start initial : Nat) (single : Bool) :
    Nat → ReductionWalk → ReductionWalk
  | 0, w => w
  | fuel + 1, w =>
    if w.machine.count ≤ w.reading then w
    else ReductionWalk.run t terminals start initial single fuel
      (w.step t terminals start initial single)

/-- Makes all reductions that are possible from a reading on, before one terminal or (with none
given, or before the end of the text) before any. Tells whether some reading can then take the
terminal. -/
def reduceAll (t : Task) (m : Machine) (start : Nat) (terminal : Option Nat) : Bool × Machine :=
  let terminal := terminal.filter (· ≠ 0)
  let terminals := match terminal with
    | some x => [x]
    | none => (List.range (t.language.table.terminalCount - 1)).map (· + 1)
  let w := ReductionWalk.run t terminals start m.count terminal.isSome (m.vertices.size + 1000)
    { machine := m, reading := start }
  (w.takes, w.machine)

def completesBefore (m : Machine) (state terminal : Nat) : Bool × Machine :=
  let (actions, m) := m.actions state terminal
  (match actions.head? with
    | some (.reduce _) => true
    | _ => false, m)

/-- Looks for a terminal that, supposed at the place of a reading, lets it take the next one. The
reading with the supposed terminal comes last. -/
def suppose (t : Task) (m : Machine) (v : Nat) (next : Nat) : Option Machine × Machine :=
  go ((List.range (t.language.table.terminalCount - 1)).map (· + 1)) m
where
  go : List Nat → Machine → Option Machine × Machine
    | [], m => (none, m)
    | x :: rest, m =>
      let state := m.state v
      let (after, m) := m.afterTerminal state x
      if after = 0 || after = state then go rest m
      else
        let (completes, m) := m.completesBefore after next
        if completes then
          let copy := m.count
          let tried := { m with heads := m.heads.push { m.head v with summary := none } }
          let tried := tried.push t copy (some (Fragment.supposed x (m.place v))) after
          match tried.reduceAll t copy (some next) with
          | (true, found) => (some found, m)
          | (false, failed) => go rest failed
        else go rest m

/-- The terminal that a fragment begins with; the end of the text is 0. -/
def terminalOf (f : Fragment) : Option Nat :=
  match f.label with
  | .symbol n => some n
  | _ => none

/-- Goes back to a state that was passed: what came since becomes an error. -/
def recoverTo (t : Task) (m : Machine) (v depth goal : Nat) : Option Machine :=
  let groups := m.vertices.below (m.head v).vertex depth
  let initial := m.count
  let m := groups.foldl (fun m (vertex, _) => m.branch v vertex) m
  let (m, _, recovered) := groups.foldl (fun (m, reading, recovered) (_, ways) =>
    if m.state reading ≠ goal then (m.halt reading, reading + 1, recovered)
    else
      let way := ways.headD []
      let below := (m.vertex reading).links.toList.findSome? fun l =>
        l.fragment.bind fun f => if f.label = .unreadable then some (l.vertex, f) else none
      let (m, way) := match below with
        | some (vertex, f) =>
          (m.modifyHead reading ({ · with vertex := vertex }), f.parts ++ way)
        | none => (m, way)
      let (parts, trailing) := withoutTrailingExtras way
      let m := if parts.isEmpty then m
        else m.push t reading
          (some (t.compose .unreadable none true 0 parts (m.place reading))) goal
      let m := trailing.foldl (fun m f => m.push t reading (some f) goal) m
      (m, reading + 1, true)) (m, initial, false)
  if recovered then some m else none

/-- Looks for a passed state that has a use for what comes next. -/
def recoverToPassed (t : Task) (m : Machine) (v terminal : Nat) : List Passed → Option Machine
  | [] => none
  | p :: rest =>
    let place := m.place v
    let wouldMerge := (List.range m.count).any fun j => m.state j = p.state && m.place j = place
    if p.state = 0 || t.bytesBetween p.place place = 0 || wouldMerge then
      recoverToPassed t m v terminal rest
    else
      let cost := m.cost v + p.depth * costs.passedTree +
        t.bytesBetween p.place place * costs.passedChar +
        t.rowsBetween p.place place * costs.passedLine
      if m.betterExists v false cost then none
      else if (m.automaton.valid p.state).testBit terminal then
        let depth := if m.weightSinceError v > 0 then p.depth + 1 else p.depth
        match m.recoverTo t v depth p.state with
        | some m => some m
        | none => recoverToPassed t m v terminal rest
      else recoverToPassed t m v terminal rest

def dropInactive (m : Machine) (start : Nat) : Machine :=
  let (earlier, later) := (m.heads.extract 0 start, m.heads.extract start m.heads.size)
  { m with heads := earlier ++ later.filter (·.isActive) }

/-- What a reading does in an error with what comes next: a copy of it may go back to a state that
was passed, and the reading itself passes over. -/
def recover (t : Task) (m : Machine) (v : Nat) (next : Fragment) : Machine :=
  let m := m.refresh
  let previous := m.count
  let costNow := m.cost v
  let gone := match (m.head v).summary, terminalOf next with
    | some summary, some terminal => m.recoverToPassed t v terminal summary
    | _, _ => none
  let recovered := gone.isSome
  let m := (gone.getD m).dropInactive previous
  if recovered && m.count > limits.readings then m.halt v
  else if next.label = .symbol 0 then
    let whole := t.compose .unreadable none false 0 [] (m.place v)
    (m.push t v (some whole) 1).accept t v next
  else
    let o := next.outline
    let cost := costNow + costs.passedTree + t.bytesBetween o.origin o.stop * costs.passedChar +
      t.rowsBetween o.origin o.stop * costs.passedLine
    if m.betterExists v false cost then m.halt v
    else
      let isExtra := match o.label with
        | .symbol n => t.language.vocabulary.extras.testBit n
        | _ => false
      let next := match next with
        | .mk o parts => Fragment.mk { o with extra := o.extra || isExtra } parts
      let passed := t.compose .passedOver none false 0 [next] (m.place v)
      let (m, passed) := if m.weightSinceError v > 0 then
          match m.vertices.below (m.head v).vertex 1 with
          | (vertex, way :: _) :: _ =>
            (m.modifyHead v ({ · with vertex := vertex }),
              t.compose .passedOver none false 0 (way ++ [passed]) (m.place v))
          | _ => (m, passed)
        else (m, passed)
      m.push t v (some passed) 0

/-- Marks an error on top of a reading and of those that reductions made of it, from `first` on,
and supposes a missing terminal where that helps. -/
def markErrors (t : Task) (next : Option Nat) (version first last : Nat) (m : Machine) : Machine :=
  let readings := version :: (List.range last).filter (first ≤ ·)
  (readings.foldl (fun (supposed, m) v =>
    let (found, m) := match supposed, next with
      | false, some x => m.suppose t v x
      | _, _ => (none, m)
    let m := found.getD m
    (supposed || found.isSome, m.push t v none 0)) (false, m)).2

def handleError (t : Task) (m : Machine) (v : Nat) (next : Fragment) : Machine :=
  let first := m.count
  let (_, m) := m.reduceAll t v none
  let last := m.count
  let m := m.markErrors t (terminalOf next) v first last
  let m := (List.range (last - first)).foldl (fun m _ => (m.merge? t v first).getD m) m
  let summary := summarize m.vertices (m.vertices.size + 1)
    [{ vertex := (m.head v).vertex }] []
  let m := m.modifyHead v ({ · with summary := some summary.reverse })
  m.recover t v next

end CodeSurvey.Parsing.Machine
