import CodeSurvey.CommandLine.View
import CodeSurvey.Settings

namespace CodeSurvey.CommandLine

open Loading Project

structure Status where
  loaded : Nat
  analysed : Nat
  unreadable : Nat
  /-- The file to which the result was written. -/
  output : Option String
  colors : Bool
deriving DecidableEq, Repr

namespace Status

variable (s : Status)

def line (seconds : String) : String :=
  let number := fun n : Nat => Color.cyan.paint s.colors (toString n)
  Color.boldGreen.paint s.colors "✓" ++ " " ++ number s.loaded ++ " files loaded, " ++
    number s.analysed ++ " source files analysed in " ++ seconds ++ "s" ++
    (match s.output with
      | some path => " -> " ++ path
      | none => "")

def lines (seconds : String) : List String :=
  s.line seconds ::
    if s.unreadable = 0 then []
    else [Color.boldYellow.paint s.colors "!" ++ " " ++ toString s.unreadable ++
      " files could not be read"]

end Status

inductive RunError where
  | notLoaded (path : String) (cause : Failure)
  | notWritten (path : String) (cause : WriteFailure)
  /-- A number is no word. The program is stopped at once. -/
  | overflow
deriving DecidableEq, Repr

namespace RunError

def exitCode : RunError → UInt32
  | notLoaded .. | notWritten .. => 1
  | overflow => 101

def message : RunError → String
  | notLoaded path cause => withCause ("Failed to load " ++ path) cause.message
  | notWritten path cause => withCause ("Failed to write " ++ path) cause.message
  | overflow => "attempt to multiply with overflow\n"
where
  withCause (message cause : String) : String :=
    "Error: " ++ message ++ "\n\nCaused by:\n    " ++
      "\n    ".intercalate ((Text.splitWhere (· = '\n') cause.toList).map String.ofList) ++ "\n"

end RunError

structure Result where
  shown : String
  status : Option Status
  disk : Disk

/-- The format of results: that of the arguments, else that of the settings, else text. -/
def formatFor (i : Invocation) (settings : Settings) : OutputFormat :=
  (i.format <|> (settings.format.map Text.lower).bind OutputFormat.ofName?).getD .text

def analyze (i : Invocation) (settings : Settings) (colors : Bool) (disk : Disk)
    (files : LoadedFiles) (output : Option String) (sections : Sections) :
    Except RunError Result := do
  let structure? := if sections = .reportOnly then none else some (Structure.ofFiles files.files)
  let survey? := if sections = .structureOnly then none else some (survey files.files)
  let text := View.analysis (formatFor i settings) structure? survey?
  let status : Status := {
    loaded := files.files.size
    analysed := (survey?.map (·.totals.files)).getD 0
    unreadable := files.errors
    output
    colors }
  let status? := if i.quiet then none else some status
  match output with
  | none => .ok { shown := text, status := status?, disk }
  | some path =>
    match disk.write path text.toUTF8 with
    | .ok disk => .ok { shown := "", status := status?, disk }
    | .error cause => .error (.notWritten path cause)

/-- Runs a command. Its settings are those of the folder that it is for. If these do not say
whether to use colours, it is said from outside. -/
def Invocation.run (i : Invocation) (colorsElse : Bool) (disk : Disk)
    (engine : Engine := .standard) : Except RunError Result :=
  let path := i.task.path
  let settings := Settings.ofFolder disk path
  let colors := settings.color.getD colorsElse
  match settings.scanner.loadOptions? with
  | none => .error .overflow
  | some options =>
    match load disk path options engine with
    | .error cause => .error (.notLoaded path cause)
    | .ok files =>
      let paths := files.files.keys
      let unchanged := fun text => .ok { shown := withLineEnd text, status := none, disk }
      match i.task with
      | .analyze _ output _ sections => analyze i settings colors disk files output sections
      | .tree path => unchanged (View.tree (formatFor i settings) path paths)
      | .classify _ => unchanged (View.categories (formatFor i settings) colors paths)

end CodeSurvey.CommandLine
