import CodeSurvey.Text.Blank
import CodeSurvey.Text.WordChar

namespace CodeSurvey.Digest

open Text

/-- What a line looks like. -/
inductive LineKind where
  | importLine
  | exportLine
  | functionLine
  | arrowLine
  | classLine
deriving DecidableEq, Repr

namespace LineKind

def name : LineKind → String
  | importLine => "import"
  | exportLine => "export"
  | functionLine => "function"
  | arrowLine => "arrow"
  | classLine => "class"

end LineKind

def goesOn : List Char → Bool
  | [] => false
  | c :: _ => isWordChar c

def beginsWith (word text : List Char) : Bool :=
  word.isPrefixOf text && !goesOn (text.drop word.length)

/-- Whether a text has a word in it. The flag tells whether a word character comes before. -/
def hasWord (word : List Char) (after : Bool) : List Char → Bool
  | [] => !after && beginsWith word []
  | c :: rest => !after && beginsWith word (c :: rest) || hasWord word (isWordChar c) rest

/-- Whether a text has another in it. -/
def hasPart (part : List Char) : List Char → Bool
  | [] => part.isEmpty
  | c :: rest => part.isPrefixOf (c :: rest) || hasPart part rest

def LineKind.applies (line : List Char) : LineKind → Bool
  | importLine => beginsWith "import".toList line
  | exportLine => beginsWith "export".toList line
  | functionLine => hasWord "function".toList false line
  | arrowLine => hasPart "=>".toList line
  | classLine => hasWord "class".toList false line

def lineKind? (line : List Char) : Option LineKind :=
  [LineKind.importLine, .exportLine, .functionLine, .arrowLine, .classLine].find? (·.applies line)

/-- How many characters of a line are kept. -/
def maxLineLength : Nat := 120

def digestLine? (line : List Char) : Option String :=
  if line.isEmpty then none
  else (lineKind? line).map fun kind =>
    "// " ++ kind.name ++ ": " ++ String.ofList (line.take maxLineLength)

def digestLines (content : String) : List String :=
  (lines content.toList).filterMap fun line => digestLine? (trim line)

end CodeSurvey.Digest
