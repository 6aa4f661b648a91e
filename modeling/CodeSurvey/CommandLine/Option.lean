import CodeSurvey.Text.LowerCase

namespace CodeSurvey.CommandLine

inductive Command where
  | analyze
  | tree
  | classify
deriving DecidableEq, Repr

namespace Command

def all : List Command := [analyze, tree, classify]

def name : Command → String
  | analyze => "analyze"
  | tree => "tree"
  | classify => "classify"

/-- Other names under which a command is known. -/
def aliases : Command → List String
  | analyze => ["a"]
  | _ => []

def ofName? (name : String) : Option Command :=
  all.find? fun c => c.name = name || c.aliases.contains name

end Command

/-- How results are written. -/
inductive OutputFormat where
  | text
  | json
deriving DecidableEq, Repr, Inhabited

def OutputFormat.ofName? (name : String) : Option OutputFormat :=
  match name with
  | "text" => some text
  | "json" => some json
  | _ => none

inductive Switch where
  | verbose
  | quiet
  | reportOnly
  | structureOnly
deriving DecidableEq, Repr

inductive Parameter where
  | format
  | output
  | threads
deriving DecidableEq, Repr

inductive Purpose where
  | help
  | version
  | switch (s : Switch)
  | parameter (p : Parameter)
deriving DecidableEq, Repr

structure NamedOption where
  letter : Option Char
  name : String
  purpose : Purpose
deriving DecidableEq, Repr

def generalOptions : List NamedOption := [
  ⟨'v', "verbose", .switch .verbose⟩,
  ⟨'q', "quiet", .switch .quiet⟩,
  ⟨none, "format", .parameter .format⟩,
  ⟨'h', "help", .help⟩,
  ⟨'V', "version", .version⟩]

def optionsOf : Option Command → List NamedOption
  | some .analyze => [
      ⟨'o', "output", .parameter .output⟩,
      ⟨none, "threads", .parameter .threads⟩,
      ⟨none, "report-only", .switch .reportOnly⟩,
      ⟨none, "structure-only", .switch .structureOnly⟩] ++ generalOptions
  | _ => generalOptions

/-- A number of 64 bits, perhaps with a plus sign in front. -/
def count? (value : String) : Option Nat :=
  let digits := match value.toList with
    | '+' :: rest => rest
    | cs => cs
  if digits.isEmpty || !digits.all Char.isDigit then none
  else
    let n := digits.foldl (fun n c => n * 10 + (c.toNat - '0'.toNat)) 0
    if n < Nat.pow 2 64 then some n else none

namespace Parameter

def name : Parameter → String
  | format => "format"
  | output => "output"
  | threads => "threads"

def accepts (value : String) : Parameter → Bool
  | format => (OutputFormat.ofName? value).isSome
  | output => value ≠ ""
  | threads => (count? value).isSome

end Parameter

def Switch.name : Switch → String
  | verbose => "verbose"
  | quiet => "quiet"
  | reportOnly => "report-only"
  | structureOnly => "structure-only"

end CodeSurvey.CommandLine
