import CodeSurvey.Project.Report
import CodeSurvey.Project.Structure

namespace CodeSurvey.Project.Document

/-- A file under its path, with an empty line after it. -/
def entry (path body : String) : String :=
  "=== " ++ path ++ " ===\n" ++ body ++ (if ['\n'].isSuffixOf body.toList then "" else "\n") ++ "\n"

def entries {α : Type} (body : α → String) (m : SortedMap α) : String :=
  String.join (m.entries.map fun (path, a) => entry path (body a))

def sections (s : Structure) : String :=
  "项目结构:\n" ++ s.tree ++ "\n关键文件:\n" ++ entries id s.keyFiles ++ "文件摘要:\n" ++
    entries id s.digests ++ "配置文件:\n" ++ entries (·.display) s.configs

def text (s : Structure) (report : String) : String := sections s ++ report

def json (s : Structure) (p : ProjectSurvey) : Json :=
  .object [("structure", s.json), ("analysis", p.json)]

/-- The text of both, over several lines or on a single one. -/
def exportText (s : Structure) (p : ProjectSurvey) (pretty : Bool) : String :=
  if pretty then (json s p).pretty else (json s p).compact

end CodeSurvey.Project.Document
