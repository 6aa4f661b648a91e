import CodeSurvey.Text.Blank

namespace CodeSurvey.Paths

open Text

/-- The parts of a path between slashes, empty parts included. -/
def segments (path : String) : List String :=
  (splitWhere (· = '/') path.toList).map String.ofList

/-- Whether a segment leads somewhere: empty segments and single dots do not. -/
def isStep (segment : String) : Bool := segment ≠ "" && segment ≠ "."

/-- The last segment that leads somewhere, unless it goes up. -/
def fileName? (path : String) : Option String :=
  match ((segments path).filter isStep).getLast? with
  | some ".." => none
  | last => last

def splitAtLastDot (name : List Char) : Option (List Char × List Char) :=
  match name.reverse.span (· ≠ '.') with
  | (_, []) => none
  | (after, _ :: before) => some (before.reverse, after.reverse)

/-- What follows the last dot of a name. A dot at the beginning starts no extension. -/
def extensionOf? (name : String) : Option String :=
  match splitAtLastDot name.toList with
  | some (_ :: _, after) => some (String.ofList after)
  | _ => none

def extension? (path : String) : Option String := (fileName? path).bind extensionOf?

end CodeSurvey.Paths
