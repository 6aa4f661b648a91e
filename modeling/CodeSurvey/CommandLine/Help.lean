import CodeSurvey.CommandLine.Option

namespace CodeSurvey.CommandLine.Help

/-- Two columns; the first is as wide as its longest text. -/
def table (rows : List (String × String)) : String :=
  let width := (rows.map (·.1.length)).foldl max 0
  String.join (rows.map fun (left, right) =>
    "  " ++ left.pushn ' ' (width - left.length) ++ "  " ++ right ++ "\n")

def summaryOf : Command → String
  | .analyze => "Build the structure document and analysis report"
  | .tree => "Print the file tree of a directory"
  | .classify => "Show the category assigned to every file"

def pathSummary : Command → String
  | .analyze => "Directory to analyze (defaults to current directory) [default: .]"
  | .tree => "Directory to render (defaults to current directory) [default: .]"
  | .classify => "Directory to classify (defaults to current directory) [default: .]"

def commandRow (c : Command) : String × String :=
  (c.name, summaryOf c ++ String.join (c.aliases.map fun a => " [alias: " ++ a ++ "]"))

def optionSummary : Purpose → String
  | .help => "Print help (see more with '--help')"
  | .version => "Print version"
  | .switch .verbose => "Enable verbose output (debug logging)"
  | .switch .quiet => "Suppress all output except errors"
  | .switch .reportOnly => "Only produce the analysis report"
  | .switch .structureOnly => "Only produce the project structure"
  | .parameter .format =>
    "Output format (overrides config default) [possible values: text, json]"
  | .parameter .output => "Output file (default: stdout)"
  | .parameter .threads => "Worker threads for per-file work (default: one per CPU)"

def optionRow (o : NamedOption) : String × String :=
  let letter := match o.letter with
    | some c => String.ofList ['-', c, ',', ' ']
    | none => "    "
  let value := match o.purpose with
    | .parameter _ => " <" ++ String.ofList (o.name.toList.map Char.toUpper) ++ ">"
    | _ => ""
  (letter ++ "--" ++ o.name ++ value, optionSummary o.purpose)

def examples : String := "Examples:
  codescope analyze                 Analyze the current directory
  codescope analyze app -o out.txt  Write the document to a file
  codescope tree src                Show the file tree
  codescope classify --format json  List file categories as JSON
"

/-- How the program is used. -/
def general : String :=
  "Project structure and static analysis for source trees\n\n" ++
    "Usage: codescope [OPTIONS] [COMMAND]\n\nCommands:\n" ++ table (Command.all.map commandRow ++
      [("help", "Print this message or the help of the given subcommand(s)")]) ++
    "\nOptions:\n" ++ table ((optionsOf none).map optionRow) ++ "\n" ++ examples

def ofCommand (c : Command) : String :=
  summaryOf c ++ "\n\nUsage: codescope " ++ c.name ++ " [OPTIONS] [PATH]\n\nArguments:\n" ++
    table [("[PATH]", pathSummary c)] ++ "\nOptions:\n" ++
    table ((optionsOf (some c)).map optionRow)

def text : Option Command → String
  | none => general
  | some c => ofCommand c

def version : Option Command → String
  | none => "codescope 0.1.0\n"
  | some c => "codescope-" ++ c.name ++ " 0.1.0\n"

end CodeSurvey.CommandLine.Help
