import CodeSurvey.Decimal.Fixed
import CodeSurvey.Project.Survey

namespace CodeSurvey.Project.Report

open Script

/-- A heading with a rule below it. -/
def heading (title : String) : String := title ++ "\n" ++ "".pushn '-' 20 ++ "\n"

def commaList (names : List String) : String := ", ".intercalate names

def dependency (module : String) (paths : List String) : String :=
  module ++ " 被以下文件引用:\n" ++ String.join (paths.map fun path => "  - " ++ path ++ "\n")

def function (f : FunctionRecord) : String :=
  "  " ++ f.name ++ ":\n    参数: " ++ commaList f.params ++ "\n    复杂度: " ++ toString f.complexity ++
    "\n    行数: " ++ toString f.lines ++ "\n"

def classText (c : ClassRecord) : String :=
  "  " ++ c.name ++ ":\n    方法: " ++ commaList c.methods ++ "\n    属性: " ++
    commaList c.properties ++
    "\n"

def group (title : String) : List String → String
  | [] => ""
  | entries => "\n" ++ title ++ "\n" ++ String.join entries

def file (path : String) (s : FileSurvey) : String :=
  "\n文件: " ++ path ++ "\n复杂度: " ++ toString s.complexity ++ "\n" ++
    group "函数:" (s.functions.map function) ++ group "类:" (s.classes.map classText)

def overview (t : Totals) : String :=
  "总文件数: " ++ toString t.files ++ "\n总函数数: " ++ toString t.functions ++ "\n总类数: " ++
    toString t.classes ++ "\n总代码行数: " ++ toString t.lines ++ "\n平均复杂度: " ++
    t.averageComplexity.fixed 2 ++ "\n\n"

def text (t : Totals) (files : SortedMap FileSurvey) : String :=
  "代码分析报告\n" ++ "".pushn '=' 50 ++ "\n\n" ++ heading "项目概览:" ++ overview t ++
    heading "依赖关系:" ++
    String.join (t.dependencies.entries.map fun (module, paths) => dependency module paths) ++
    "\n" ++ heading "文件详细分析:" ++ String.join (files.entries.map fun (path, s) => file path s)

def ofSurvey (p : ProjectSurvey) : String := text p.totals p.files

end CodeSurvey.Project.Report
