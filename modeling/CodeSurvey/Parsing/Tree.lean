import CodeSurvey.Parsing.Run
import CodeSurvey.Syntax.Node

namespace CodeSurvey.Parsing

open Grammar

/-- What a production says of a fragment at a place, or what was said of the fragment around it. -/
structure Naming where
  newKind : Option Kind := none
  role : Option Role := none

namespace Task

variable (t : Task)

/-- What a production says of its parts. -/
def steps (o : Outline) : Array Step :=
  match o.production with
  | some n => (t.language.production n).steps
  | none => #[]

def naming (steps : Array Step) (place : Nat) (extra : Bool) (role : Option Role) : Naming :=
  if extra then {}
  else match steps[place]? with
    | some step => { newKind := step.newKind, role := role <|> step.role }
    | none => { role }

def shownKind? (o : Outline) (naming : Naming) : Option Kind :=
  match o.label with
  | .unreadable => some .error
  | .passedOver => none
  | .symbol n =>
    match naming.newKind with
    | some kind => some kind
    | none => if t.language.isVisible n then some (t.language.kindOf n) else none

def mark (o : Outline) (kind : Kind) (role : Option Role) : Mark where
  kind
  role
  missing := o.missing
  flawed := o.cost > 0
  start := t.source.positionAt o.start
  stop := t.source.positionAt o.stop

mutual

def nodesOf (naming : Naming) : Fragment → List Node → List Node
  | .mk o parts, after =>
    let steps := t.steps o
    match t.shownKind? o naming with
    | some kind => .mk (t.mark o kind naming.role) (nodesOfAll steps 0 none parts []) :: after
    | none => nodesOfAll steps 0 naming.role parts after

/-- Puts the nodes of the parts of a fragment before others. The place counts parts that belong to
the production; a role, if given, goes to each of these. -/
def nodesOfAll (steps : Array Step) (place : Nat) (role : Option Role) :
    List Fragment → List Node → List Node
  | [], after => after
  | .mk o parts :: rest, after =>
    nodesOf (naming steps place o.extra role) (.mk o parts)
      (nodesOfAll steps (if o.extra then place else place + 1) role rest after)

end

/-- The syntax tree of a text. -/
def tree? : Option Node :=
  t.parse.bind fun f => (t.nodesOf {} f []).head?

end Task

end CodeSurvey.Parsing
