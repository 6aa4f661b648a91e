import CodeSurvey.Failure
import CodeSurvey.Parsing.Tree
import CodeSurvey.Paths.Segments
import CodeSurvey.Text.LowerCase

namespace CodeSurvey

def Dialect.ofExtension? (extension : String) : Option Dialect :=
  match Text.lower extension with
  | "js" | "jsx" | "mjs" | "cjs" => some .javaScript
  | "ts" | "mts" | "cts" => some .typeScript
  | "tsx" => some .tsx
  | _ => none

def Dialect.ofPath? (path : String) : Option Dialect :=
  (Paths.extension? path).bind Dialect.ofExtension?

/-- What turns a text in a dialect into a syntax tree, if it can. -/
abbrev Parser := Dialect → Source → Option Node

def Parser.standard : Parser := fun dialect source =>
  Parsing.Task.tree? ⟨.ofDialect dialect, source⟩

namespace Script

def isScript (path : String) : Bool := (Dialect.ofPath? path).isSome

/-- What is wrong at a node, and where; rows and columns count from one. -/
def describeError (n : Node) : String :=
  let p := n.mark.start
  let what := if n.mark.missing then "missing " ++ n.kind.name else "syntax error"
  what ++ " at " ++ toString (p.row + 1) ++ ":" ++ toString (p.column + 1)

def check (path : String) (tree : Option Node) : Except Failure Node :=
  match tree with
  | none => .error (.unparsed path "parser returned no tree")
  | some root =>
    match root.firstError? with
    | some n => .error (.unparsed path (describeError n))
    | none => .ok root

def read (path : String) (source : Source) (parser : Parser := .standard) : Except Failure Node :=
  match Dialect.ofPath? path with
  | none => .error (.unsupported path)
  | some dialect => check path (parser dialect source)

end Script

end CodeSurvey
