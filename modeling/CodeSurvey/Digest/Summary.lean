import CodeSurvey.Digest.Lines
import CodeSurvey.Digest.Outline

namespace CodeSurvey.Digest

/-- What stands for a file in which there is nothing to note. -/
def nothingFound : String := "// No structure found"

inductive FileDigest where
  | outlined (text : String)
  | picked (text : String)
deriving DecidableEq, Repr

namespace FileDigest

def text : FileDigest → String
  | outlined t => t
  | picked t => t

def isPicked : FileDigest → Bool
  | outlined _ => false
  | picked _ => true

/-- The name in serialised form. -/
def tag : FileDigest → String
  | outlined _ => "structured"
  | picked _ => "fallback"

end FileDigest

def joinLines : List String → String
  | [] => nothingFound
  | lines => "\n".intercalate lines

def outline? (path content : String) (parser : Parser := .standard) : Option Outline :=
  let source := Source.ofString content
  match Script.read path source parser with
  | .ok root => some (outline source root)
  | .error _ => none

def digestFile (path content : String) (parser : Parser := .standard) : FileDigest :=
  match outline? path content parser with
  | some o => .outlined (joinLines o.lines)
  | none => .picked (joinLines (digestLines content))

end CodeSurvey.Digest
