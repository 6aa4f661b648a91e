import CodeSurvey.CommandLine.Color
import CodeSurvey.CommandLine.Request
import CodeSurvey.Paths.Classification
import CodeSurvey.Project.Document

namespace CodeSurvey.CommandLine

open Paths Project

def withLineEnd (s : String) : String := if s.endsWith "\n" then s else s ++ "\n"

namespace View

def tree (format : OutputFormat) (root : String) (paths : List String) : String :=
  match format with
  | .text => drawTree paths
  | .json => (Json.object [("root", .string root), ("files", .ofNat paths.length),
      ("tree", .string (drawTree paths))]).pretty

def colorOf : FileCategory → Color
  | .key => .boldGreen
  | .config => .yellow
  | .other => .dim

def classifiedLine (colors : Bool) (path : String) : String :=
  let category := classify path
  let label := category.label.pushn ' ' (6 - category.label.length)
  (colorOf category).paint colors label ++ " " ++ path ++
    (match keyRule? path with
      | some rule => " " ++ Color.dim.paint colors ("(" ++ rule.name ++ ")")
      | none => "") ++ "\n"

def classifiedJson (path : String) : Json :=
  .object ([("path", .string path), ("category", .string (classify path).tag)] ++
    (keyRule? path).toList.map fun rule => ("rule", .string rule.name))

def countOf (category : FileCategory) (paths : List String) : String :=
  toString (paths.countP (classify · = category)) ++ " " ++ category.label

def categories (format : OutputFormat) (colors : Bool) (paths : List String) : String :=
  match format with
  | .text => String.join (paths.map (classifiedLine colors)) ++ "\n" ++
      ", ".intercalate ([.key, .config, .other].map (countOf · paths)) ++ "\n"
  | .json => (Json.object [("entries", .array (paths.map classifiedJson))]).pretty

def analysis (format : OutputFormat) (structure? : Option Structure)
    (survey? : Option ProjectSurvey) : String :=
  withLineEnd <|
    match format, structure?, survey? with
    | .json, some s, some p => Document.exportText s p true
    | .json, some s, none => s.json.pretty
    | .json, none, some p => p.json.pretty
    | .text, some s, some p => Document.text s (Report.ofSurvey p)
    | .text, some s, none => Document.sections s
    | .text, none, some p => Report.ofSurvey p
    | _, none, none => ""

end View

end CodeSurvey.CommandLine
