import CodeSurvey.CommandLine.Option

namespace CodeSurvey.CommandLine

inductive UsageError where
  | unexpected (argument : String)
  | unknownCommand (name : String)
  | repeated (option : String)
  | withoutValue (option : String)
  | invalidValue (option value : String)
  | superfluousValue (option value : String)
  | conflict (option other : String)
deriving DecidableEq, Repr

def UsageError.message : UsageError → String
  | unexpected argument => "unexpected argument '" ++ argument ++ "' found"
  | unknownCommand name => "unrecognized subcommand '" ++ name ++ "'"
  | repeated option => "the argument '--" ++ option ++ "' cannot be used multiple times"
  | withoutValue option => "a value is required for '--" ++ option ++ "' but none was supplied"
  | invalidValue option value => "invalid value '" ++ value ++ "' for '" ++ option ++ "'"
  | superfluousValue option value =>
    "unexpected value '" ++ value ++ "' for '" ++ option ++ "' found; no more were expected"
  | conflict option other =>
    "the argument '--" ++ option ++ "' cannot be used with '--" ++ other ++ "'"

/-- Which parts of a result are shown. -/
inductive Sections where
  | all
  | reportOnly
  | structureOnly
deriving DecidableEq, Repr

inductive Task where
  | analyze (path : String) (output : Option String) (threads : Option Nat) (sections : Sections)
  | tree (path : String)
  | classify (path : String)
deriving DecidableEq, Repr

def Task.path : Task → String
  | analyze path .. => path
  | tree path => path
  | classify path => path

structure Invocation where
  task : Task
  verbose : Bool
  quiet : Bool
  format : Option OutputFormat
deriving DecidableEq, Repr

/-- What arguments ask for. -/
inductive Request where
  | run (i : Invocation)
  /-- What the program does, if no command is given. -/
  | overview
  | help (command : Option Command)
  | version (command : Option Command)
  | misuse (e : UsageError)
deriving DecidableEq, Repr

structure Given where
  switches : List Switch := []
  values : List (Parameter × String) := []
  path : Option String := none
deriving DecidableEq, Repr, Inhabited

namespace Given

variable (g : Given)

def has (s : Switch) : Bool := g.switches.contains s

def value? (p : Parameter) : Option String := (g.values.find? (·.1 = p)).map (·.2)

/-- Each option is given once at most. -/
def turnOn (s : Switch) : Except Request Given :=
  if g.has s then .error (.misuse (.repeated s.name))
  else .ok { g with switches := s :: g.switches }

@[inherit_doc turnOn]
def set (p : Parameter) (value : String) : Except Request Given :=
  if (g.value? p).isSome then .error (.misuse (.repeated p.name))
  else if !p.accepts value then .error (.misuse (.invalidValue ("--" ++ p.name) value))
  else .ok { g with values := (p, value) :: g.values }

def setPath (path : String) : Except Request Given :=
  if g.path.isSome then .error (.misuse (.unexpected path))
  else if path = "" then .error (.misuse (.invalidValue "[PATH]" path))
  else .ok { g with path := some path }

end Given

inductive Argument where
  | dashes
  | long (name : String) (value : Option String)
  | letters (cs : List Char)
  | plain (text : String)
deriving DecidableEq, Repr

def Argument.ofString (s : String) : Argument :=
  match s.toList with
  | ['-', '-'] => dashes
  | '-' :: '-' :: rest =>
    match rest.span (· ≠ '=') with
    | (name, _ :: value) => long (String.ofList name) (some (String.ofList value))
    | (name, []) => long (String.ofList name) none
  | ['-'] => plain s
  | '-' :: rest => letters rest
  | _ => plain s

/-- Options as far as they are read. The value of the last one may be still to come, or not yet
looked at. -/
structure Reading where
  given : Given := {}
  waiting : Option (Parameter × Option String) := none
deriving DecidableEq, Repr, Inhabited

namespace Reading

variable (command : Option Command) (r : Reading)

/-- Whether the next argument is a value. -/
def awaitsValue : Bool :=
  match r.waiting with
  | some (_, none) => true
  | _ => false

/-- Looks at the value of the last option. -/
def settle : Except Request Reading :=
  match r.waiting with
  | none => .ok r
  | some (p, none) => .error (.misuse (.withoutValue p.name))
  | some (p, some value) => (r.given.set p value).map fun given => { given }

/-- Takes an option without a value, or with one that is still to come. -/
def takeOption (purpose : Purpose) : Except Request Reading := do
  let r ← r.settle
  match purpose with
  | .help => .error (.help command)
  | .version => .error (.version command)
  | .switch s => (r.given.turnOn s).map fun given => { given }
  | .parameter p => .ok { r with waiting := some (p, none) }

def takeWithValue (o : NamedOption) (value : String) : Except Request Reading := do
  match o.purpose with
  | .parameter p =>
    let r ← r.settle
    (r.given.set p value).map fun given => { given }
  | _ => .error (.misuse (.superfluousValue ("--" ++ o.name) value))

/-- Takes options given by their letters. What follows the letter of one with a value is the
value. -/
def takeLetters (r : Reading) : List Char → Except Request Reading
  | [] => .ok r
  | c :: rest =>
    match (optionsOf command).find? (·.letter = some c) with
    | none => .error (.misuse (.unexpected (String.ofList ['-', c])))
    | some o =>
      match o.purpose, rest with
      | .parameter _, '=' :: value => takeWithValue r o (String.ofList value)
      | .parameter _, c :: value => takeWithValue r o (String.ofList (c :: value))
      | purpose, rest => do takeLetters (← takeOption command r purpose) rest

def takeLong (name : String) (value : Option String) : Except Request Reading :=
  match (optionsOf command).find? (·.name = name), value with
  | none, _ => .error (.misuse (.unexpected ("--" ++ name)))
  | some o, some value => r.takeWithValue o value
  | some o, none => r.takeOption command o.purpose

/-- Takes a plain argument as the value that the last option waits for. -/
def takeValue (value : String) : Reading :=
  { r with waiting := r.waiting.map fun (p, _) => (p, some value) }

def takePath (path : String) : Except Request Reading := do
  let r ← r.settle
  (r.given.setPath path).map fun given => { given }

/-- All options at a place, once there are no more arguments. -/
def finish : Except Request Given := do
  let g := (← r.settle).given
  if g.has .reportOnly && g.has .structureOnly then
    .error (.misuse (.conflict Switch.reportOnly.name Switch.structureOnly.name))
  else .ok g

end Reading

def readCommand (c : Command) (r : Reading) : List String → Except Request Given
  | [] => r.finish
  | arg :: rest =>
    match Argument.ofString arg with
    | .dashes => do (← rest.foldlM Reading.takePath r).finish
    | .long name value => do readCommand c (← r.takeLong (some c) name value) rest
    | .letters cs => do readCommand c (← r.takeLetters (some c) cs) rest
    | .plain text =>
      if r.awaitsValue then readCommand c (r.takeValue text) rest
      else do readCommand c (← r.takePath text) rest

def helpFor : List String → Request
  | [] => .help none
  | [name] =>
    match Command.ofName? name with
    | some c => .help (some c)
    | none => if name = "help" then .help none else .misuse (.unknownCommand name)
  | name :: other :: _ =>
    let known := (Command.ofName? name).isSome || name = "help"
    .misuse (.unknownCommand (if known then other else name))

/-- Reads all arguments: the options before the command, the command and the options after it. -/
def readAll (r : Reading) : List String → Except Request (Given × Option (Command × Given))
  | [] => r.finish.map (·, none)
  | arg :: rest =>
    match Argument.ofString arg with
    | .dashes =>
      match rest with
      | [] => r.finish.map (·, none)
      | other :: _ => .error (.misuse (.unexpected other))
    | .long name value => do readAll (← r.takeLong none name value) rest
    | .letters cs => do readAll (← r.takeLetters none cs) rest
    | .plain text =>
      if r.awaitsValue then readAll (r.takeValue text) rest
      else if text = "help" then .error (helpFor rest)
      else
        match Command.ofName? text with
        | some c => do
          let inner ← readCommand c {} rest
          let outer ← r.finish
          .ok (outer, some (c, inner))
        | none => .error (.misuse (.unknownCommand text))

def sectionsOf (g : Given) : Sections :=
  if g.has .reportOnly then .reportOnly
  else if g.has .structureOnly then .structureOnly
  else .all

def taskOf (c : Command) (g : Given) : Task :=
  let path := g.path.getD "."
  match c with
  | .analyze =>
    .analyze path (g.value? .output) ((g.value? .threads).bind count?) (sectionsOf g)
  | .tree => .tree path
  | .classify => .classify path

/-- What is to be run. General options count at both places; the format after the command comes
first. -/
def invocationOf (outer : Given) (c : Command) (inner : Given) : Invocation where
  task := taskOf c inner
  verbose := outer.has .verbose || inner.has .verbose
  quiet := outer.has .quiet || inner.has .quiet
  format := (inner.value? .format <|> outer.value? .format).bind OutputFormat.ofName?

def Request.ofArguments (args : List String) : Request :=
  match readAll {} args with
  | .ok (outer, some (c, inner)) => .run (invocationOf outer c inner)
  | .ok (_, none) => .overview
  | .error request => request

end CodeSurvey.CommandLine
