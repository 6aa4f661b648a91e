import CodeSurvey.Loading.GlobReader
import CodeSurvey.Text.Blank

namespace CodeSurvey.Loading

/-- What rules say of a path. -/
inductive Verdict where
  | unknown
  | ignored
  | kept
deriving DecidableEq, Repr, Inhabited

def Verdict.orElse : Verdict → Verdict → Verdict
  | unknown, v => v
  | v, _ => v

structure IgnoreRule where
  keeps : Bool
  foldersOnly : Bool
  glob : Glob
deriving Repr, Inhabited

namespace IgnoreRule

/-- Drops blanks at the end, except after a line that ends in a backslash and a space. -/
def trimLine (line : List Char) : List Char :=
  if ['\\', ' '].isSuffixOf line then line else Text.dropWhileEnd Text.isBlank line

/-- The pattern of a rule: one without a slash matches in any folder, and one that ends in `/**`
does not match the folder itself. -/
def pattern (anchored : Bool) (cs : List Char) : List Char :=
  let cs := if anchored || cs.contains '/' || cs = ['*', '*'] then cs else "**/".toList ++ cs
  if "/**".toList.isSuffixOf cs then cs ++ "/*".toList else cs

/-- Reads a rule from a line. Comments, blank lines and lines that are no patterns give none. -/
def ofLine? (openClasses : Bool) (line : List Char) : Option IgnoreRule :=
  if line.head? = some '#' then none
  else
    let line := trimLine line
    if line.isEmpty then none
    else
      let (keeps, anchored, line) := match line with
        | '\\' :: '!' :: rest => (false, false, '!' :: rest)
        | '\\' :: '#' :: rest => (false, false, '#' :: rest)
        | '!' :: '/' :: rest => (true, true, rest)
        | '!' :: rest => (true, false, rest)
        | '/' :: rest => (false, true, rest)
        | rest => (false, false, rest)
      let foldersOnly := line.getLast? = some '/'
      let line := if foldersOnly then
          let cut := line.dropLast
          if cut.getLast? = some '\\' then cut.dropLast else cut
        else line
      (Glob.ofChars? openClasses (pattern anchored line)).map fun glob =>
        { keeps, foldersOnly, glob }

def applies (path : List UInt8) (isFolder : Bool) (r : IgnoreRule) : Bool :=
  (!r.foldersOnly || isFolder) && r.glob.matchesPath path

/-- The rules of some lines. If their patterns cannot be run together, there are none. -/
def ofLines (engine : Engine) (openClasses : Bool) (lines : List (List Char)) : List IgnoreRule :=
  let rules := lines.filterMap (ofLine? openClasses)
  if engine (rules.map (·.glob)) then rules else []

def verdict (rules : List IgnoreRule) (path : List UInt8) (isFolder : Bool) : Verdict :=
  match rules.reverse.find? (applies path isFolder) with
  | none => .unknown
  | some r => if r.keeps then .kept else .ignored

def splitBytes (content : List UInt8) : List (List UInt8) :=
  content.foldr (fun b parts =>
    if b = 10 then [] :: parts
    else match parts with
      | [] => [[b]]
      | part :: parts => (b :: part) :: parts) [[]]

def dropReturns : List (List UInt8) → List (List UInt8)
  | [] => []
  | [last] => [last]
  | line :: rest => (if line.getLast? = some 13 then line.dropLast else line) :: dropReturns rest

/-- The lines of a file, up to the first one that is no text. Byte order marks in front do not
count. -/
def linesOf (content : ByteArray) : List (List Char) :=
  let lines := (dropReturns (splitBytes content.toList)).map fun bytes =>
    String.fromUTF8? ⟨bytes.toArray⟩
  match (lines.takeWhile (·.isSome)).filterMap id |>.map String.toList with
  | [] => []
  | first :: rest => first.dropWhile (· = '\uFEFF') :: rest

end IgnoreRule

end CodeSurvey.Loading
