import CodeSurvey.Parsing.Recovery

namespace CodeSurvey.Parsing

open Automaton Lexis

namespace Machine

def nextToken (t : Task) (m : Machine) (v : Nat) : Fragment :=
  let state := m.state v
  let token := t.language.vocabulary.token (m.automaton.valid state) t.language.recovering
    (state = 0) (m.progressed v) t.source (m.place v)
  Fragment.ofToken token (token.terminal = some 0)

/-- Holds a reading up: what comes next does not fit. -/
def pause (m : Machine) (v : Nat) (next : Fragment) : Machine :=
  let weight := (m.vertex v).weight
  m.modifyHead v ({ · with status := .paused next, weightAtError := weight })

/-- Takes what comes next: completes phrases as the automaton says, then shifts. -/
def take (t : Task) : Nat → Machine → Nat → Fragment → Machine
  | 0, m, v, _ => m.halt v
  | fuel + 1, m, v, next =>
    let state := m.state v
    let (actions, m) := match terminalOf next with
      | some x => m.actions state x
      | none => ([], m)
    let reductions := actions.filterMap fun
      | .reduce p => some p
      | _ => none
    let (last, m) := reductions.foldl (fun (last, m) p =>
      let (r, m) := m.reduce t v p
      (r <|> last, m)) (none, m)
    match actions.getLast? with
    | some (.shift false) =>
      let (target, m) := m.target state ((terminalOf next).getD 0)
      m.push t v (some next) target
    | some .skip =>
      let next := match next with
        | .mk o parts => Fragment.mk { o with extra := true } parts
      m.push t v (some next) state
    | some .accept => m.accept t v next
    | some .recover => m.recover t v next
    | _ =>
      match last with
      | some r => take t fuel (m.renumber r v) v next
      | none =>
        let name := t.language.vocabulary.numberOf (.lexeme .identifier)
        let (asName, m) := if next.outline.isWord && next.label ≠ .symbol name then
            m.actions state name
          else ([], m)
        if !reductions.isEmpty then m.halt v
        else if !asName.isEmpty then
          match next with
          | .mk o parts => take t fuel m v (.mk { o with label := .symbol name } parts)
        else if state = 0 then m.recover t v next
        else m.pause v next

/-- Advances a reading until it gets further than any before it. -/
def advance (t : Task) (budget : Nat) (v furthest : Nat) : Nat → Machine → Machine × Nat
  | 0, m => (m, furthest)
  | fuel + 1, m =>
    if (m.head v).isActive then
      let m := take t budget m v (m.nextToken t v)
      let place := m.place v
      if furthest < place || (0 < v && place = furthest) then (m, place)
      else advance t budget v furthest fuel m
    else (m, furthest)

/-- Advances every reading, also those that come up on the way. -/
def advanceAll (t : Task) (budget : Nat) : (fuel v furthest : Nat) → Machine → Machine × Nat
  | 0, _, furthest, m => (m, furthest)
  | fuel + 1, v, furthest, m =>
    if m.count ≤ v then (m, furthest)
    else
      let (m, furthest) := m.advance t budget v furthest budget
      advanceAll t budget fuel (v + 1) furthest m

/-- Compares a reading `i` with those before it, from `j` on, by how it stood at first. Gives up the
worse of two, merges them or changes their order. The result is the number of the reading to look at
next. -/
def settle (t : Task) (here : Standing) : (fuel i j : Nat) → Machine → Nat × Machine
  | 0, i, _, m => (i + 1, m)
  | fuel + 1, i, j, m =>
    if i ≤ j then (i + 1, m)
    else
      match (m.standing j).compare here with
      | .takeLeft => (i, m.remove i)
      | .takeRight => settle t here fuel (i - 1) j (m.remove j)
      | comparison =>
        match m.merge? t j i with
        | some m => (i, m)
        | none =>
          let m := if comparison = .preferRight then
              { m with heads := m.heads.swapIfInBounds i j }
            else m
          settle t here fuel i (j + 1) m

/-- Puts the readings in order, the most promising first, and finds the least cost of one that is
not in an error. -/
def settleAll (t : Task) : (fuel i : Nat) → Option Nat → Machine → Option Nat × Machine
  | 0, _, least, m => (least, m)
  | fuel + 1, i, least, m =>
    if m.count ≤ i then (least, m)
    else if (m.head i).isHalted then settleAll t fuel i least (m.remove i)
    else
      let here := m.standing i
      let least := if here.inError then least
        else match least with
          | none => some here.cost
          | some c => some (min c here.cost)
      let (i, m) := m.settle t here (m.count + 1) i 0
      settleAll t fuel i least m

/-- Lets the first reading go on if it is held up, and gives up all others that are. -/
def resume (t : Task) : (fuel i n : Nat) → (going : Bool) → Option Nat → Machine →
    Option Nat × Machine
  | 0, _, _, _, least, m => (least, m)
  | fuel + 1, i, n, going, least, m =>
    if n ≤ i then (least, m)
    else
      match (m.head i).status with
      | .paused next =>
        if !going && m.acceptCount < limits.readings then
          let least := some (m.cost i)
          let m := m.modifyHead i ({ · with status := .active })
          resume t fuel (i + 1) n true least (m.handleError t i next)
        else resume t fuel i (n - 1) going least (m.remove i)
      | _ => resume t fuel (i + 1) n true least m

/-- Ends a round: orders the readings, limits their number and gets the best out of an error if
there is no other. -/
def condense (t : Task) (m : Machine) : Option Nat × Machine :=
  let m := m.refresh
  let (least, m) := m.settleAll t (m.count * m.count + m.count + 1) 0 none
  let m := { m with heads := m.heads.extract 0 limits.readings }
  m.resume t (m.count + 1) 0 m.count false least

/-- Runs rounds until a tree is finished that no reading can better. -/
def run (t : Task) (budget : Nat) : Nat → Machine → Nat → Option Fragment
  | 0, m, _ => m.finished
  | fuel + 1, m, furthest =>
    let (m, furthest) := m.advanceAll t budget budget 0 furthest
    let (least, m) := m.condense t
    if m.count = 0 then m.finished
    else
      match m.finished, least with
      | some tree, some cost => if tree.cost < cost then some tree
        else run t budget fuel m furthest
      | some tree, none => some tree
      | none, _ => run t budget fuel m furthest

end Machine

/-- The parser at the beginning of a text. -/
def Machine.start (t : Task) : Machine where
  automaton := t.language.automaton
  vertices := #[{ state := 1, place := 0 }]
  heads := #[{ vertex := 0 }]

/-- The best reading of a text as a whole. -/
def Task.parse (t : Task) : Option Fragment :=
  let budget := 64 * t.source.size + 4096
  (Machine.start t).run t budget budget 0

end CodeSurvey.Parsing
