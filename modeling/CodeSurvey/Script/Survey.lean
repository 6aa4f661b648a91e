import CodeSurvey.Collection.Sum
import CodeSurvey.Paths.Segments

namespace CodeSurvey.Script

structure ImportRecord where
  /-- What is imported, with single spaces; empty if a module is only run. -/
  specifiers : String
  source : String
deriving DecidableEq, Repr, Inhabited

structure FunctionRecord where
  name : String
  params : List String
  complexity : Nat
  lines : Nat
deriving DecidableEq, Repr, Inhabited

structure ClassRecord where
  name : String
  methods : List String
  properties : List String
deriving DecidableEq, Repr, Inhabited

structure FileSurvey where
  imports : List ImportRecord := []
  exports : List String := []
  functions : List FunctionRecord := []
  classes : List ClassRecord := []
  variableNames : List String := []
  complexity : Nat := 1
deriving DecidableEq, Repr, Inhabited

namespace FileSurvey

def placeholder (path : String) : FileSurvey where
  variableNames := ["config_" ++ (Paths.fileName? path).getD path]

/-- The lines of all functions together. Lines of a function inside another count for both. -/
def functionLines (s : FileSurvey) : Nat := sumOf (·.lines) s.functions

def isEmpty (s : FileSurvey) : Bool :=
  s.imports.isEmpty && s.exports.isEmpty && s.functions.isEmpty && s.classes.isEmpty &&
    s.variableNames.isEmpty

end FileSurvey

end CodeSurvey.Script
