import CodeSurvey.Project.Encoding
import CodeSurvey.Project.ImportIndex
import CodeSurvey.Script.Inventory

namespace CodeSurvey.Project

open Script WrittenJson

structure Totals where
  files : Nat := 0
  functions : Nat := 0
  classes : Nat := 0
  /-- The lines of functions, not those of files. -/
  lines : Nat := 0
  averageComplexity : Binary64 := .zero
  dependencies : ImportIndex := {}
deriving DecidableEq, Repr, Inhabited

/-- A sum divided by a number; zero if there is nothing to divide by. -/
def average (sum count : Nat) : Binary64 :=
  ((do (← Binary64.ofNat sum).div (← Binary64.ofNat count)) : Option Binary64).getD .zero

def noteImports (index : ImportIndex) (path : String) (s : FileSurvey) : ImportIndex :=
  s.imports.foldl (fun index i => index.record i.source path) index

/-- Totals are words of 64 bits, below this. -/
def Totals.bound : Nat := Nat.pow 2 64

def totals (files : SortedMap FileSurvey) : Totals :=
  let surveys := files.entries.map (·.2)
  let size := files.size % Totals.bound
  { files := size
    functions := sumOf (·.functions.length) surveys % Totals.bound
    classes := sumOf (·.classes.length) surveys % Totals.bound
    lines := sumOf (·.functionLines) surveys % Totals.bound
    averageComplexity := average (sumOf (·.complexity) surveys % Totals.bound) size
    dependencies := files.entries.foldl (fun index (path, s) => noteImports index path s) {} }

namespace Totals

def json (t : Totals) : Json :=
  .object [("total_files", .ofNat t.files), ("total_functions", .ofNat t.functions),
    ("total_classes", .ofNat t.classes), ("total_lines", .ofNat t.lines),
    ("average_complexity", .number (.double t.averageComplexity)),
    ("dependencies", t.dependencies.json)]

def decode? (w : WrittenJson) : Option Totals := do
  match ← w.record? ["total_files", "total_functions", "total_classes", "total_lines",
      "average_complexity", "dependencies"] with
  | [files, functions, classes, lines, average, dependencies] => some {
      files := ← files.natBelow? bound, functions := ← functions.natBelow? bound
      classes := ← classes.natBelow? bound, lines := ← lines.natBelow? bound
      averageComplexity := ← average.binary64?
      dependencies := ← ImportIndex.decode? dependencies }
  | _ => none

end Totals

structure ProjectSurvey where
  files : SortedMap FileSurvey := {}
  totals : Totals := {}
deriving DecidableEq, Inhabited

def survey (files : SortedMap String) (parser : Parser := .standard) : ProjectSurvey :=
  let surveys := files.filterMap fun path content =>
    if isScript path then some (surveyFile path content parser) else none
  { files := surveys, totals := totals surveys }

namespace ProjectSurvey

def json (p : ProjectSurvey) : Json :=
  .object [("files", .ofMap (·.json) p.files), ("summary", p.totals.json)]

def decode? (w : WrittenJson) : Option ProjectSurvey := do
  match ← w.record? ["files", "summary"] with
  | [files, totals] =>
    some { files := ← files.map? FileSurvey.decode?, totals := ← Totals.decode? totals }
  | _ => none

end ProjectSurvey

end CodeSurvey.Project
