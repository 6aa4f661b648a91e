namespace CodeSurvey

inductive Failure where
  /-- A script has errors; the reason tells of the first one. -/
  | unparsed (path reason : String)
  /-- The extension of a path belongs to no dialect. -/
  | unsupported (path : String)
  | grammarSetup (reason : String)
  | notFound (path : String)
deriving DecidableEq, Repr

namespace Failure

def message : Failure → String
  | unparsed path reason => "Failed to parse " ++ path ++ ": " ++ reason
  | unsupported path => "Unsupported language for " ++ path
  | grammarSetup reason => "Failed to set language: " ++ reason
  | notFound path => "Path does not exist: " ++ path

/-- Whether only a single file is affected. -/
def isRecoverable : Failure → Bool
  | unparsed .. | unsupported _ => true
  | grammarSetup _ | notFound _ => false

end Failure

end CodeSurvey
