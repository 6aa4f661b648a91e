import CodeSurvey.Json.Decoding
import CodeSurvey.Script.Survey

namespace CodeSurvey.Script

open WrittenJson

/-- Counts in records are below this. -/
def countBound : Nat := Nat.pow 2 32

namespace ImportRecord

def json (i : ImportRecord) : Json :=
  .object [("specifiers", .string i.specifiers), ("source", .string i.source)]

def decode? (w : WrittenJson) : Option ImportRecord := do
  match ← w.record? ["specifiers", "source"] with
  | [specifiers, source] => some { specifiers := ← specifiers.text?, source := ← source.text? }
  | _ => none

end ImportRecord

namespace FunctionRecord

def json (f : FunctionRecord) : Json :=
  .object [("name", .string f.name), ("params", .ofStrings f.params),
    ("complexity", .ofNat f.complexity), ("lines", .ofNat f.lines)]

def decode? (w : WrittenJson) : Option FunctionRecord := do
  match ← w.record? ["name", "params", "complexity", "lines"] with
  | [name, params, complexity, lines] => some {
      name := ← name.text?, params := ← params.list? text?
      complexity := ← complexity.natBelow? countBound, lines := ← lines.natBelow? countBound }
  | _ => none

end FunctionRecord

namespace ClassRecord

def json (c : ClassRecord) : Json :=
  .object [("name", .string c.name), ("methods", .ofStrings c.methods),
    ("properties", .ofStrings c.properties)]

def decode? (w : WrittenJson) : Option ClassRecord := do
  match ← w.record? ["name", "methods", "properties"] with
  | [name, methods, properties] => some {
      name := ← name.text?, methods := ← methods.list? text?
      properties := ← properties.list? text? }
  | _ => none

end ClassRecord

namespace FileSurvey

def json (s : FileSurvey) : Json :=
  .object [("imports", .array (s.imports.map (·.json))), ("exports", .ofStrings s.exports),
    ("functions", .array (s.functions.map (·.json))),
    ("classes", .array (s.classes.map (·.json))), ("variables", .ofStrings s.variableNames),
    ("complexity", .ofNat s.complexity)]

def decode? (w : WrittenJson) : Option FileSurvey := do
  match ← w.record? ["imports", "exports", "functions", "classes", "variables", "complexity"] with
  | [imports, exports, functions, classes, variableNames, complexity] => some {
      imports := ← imports.list? ImportRecord.decode?, exports := ← exports.list? text?
      functions := ← functions.list? FunctionRecord.decode?
      classes := ← classes.list? ClassRecord.decode?, variableNames := ← variableNames.list? text?
      complexity := ← complexity.natBelow? countBound }
  | _ => none

end FileSurvey

end CodeSurvey.Script
