import CodeSurvey.Collection.Sum

namespace CodeSurvey.Loading

inductive GlobPart where
  | byte (b : UInt8)
  /-- One byte but a slash, or any number of them. -/
  | anyByte
  | anyBytes
  | foldersFirst
  | foldersBetween
  | everythingBelow
  | oneOf (negated : Bool) (ranges : List (Char × Char))
  | either (branches : List (List GlobPart))
deriving Inhabited, Repr

abbrev Glob := List GlobPart

def slash : UInt8 := 47

def bytesOf (c : Char) : List UInt8 := (String.singleton c).toUTF8.toList

namespace Glob

/-- The bytes of a range of characters: a range from the last byte of the first to the first byte of
the last, and all other bytes of both. -/
def byteRanges (range : Char × Char) : List (UInt8 × UInt8) :=
  let first := bytesOf range.1
  let last := bytesOf range.2
  let single := fun b : UInt8 => (b, b)
  if range.1 = range.2 then first.map single
  else first.dropLast.map single ++ [(first.getLastD 0, last.headD 0)] ++ last.tail.map single

def isInside (b : UInt8) (ranges : List (Char × Char)) : Bool :=
  (ranges.flatMap byteRanges).any fun (low, high) => low ≤ b && b ≤ high

/-- What is left after each byte up to the first slash, and before all of them. -/
def restsWithin : List UInt8 → List (List UInt8)
  | [] => [[]]
  | b :: bs => (b :: bs) :: if b = slash then [] else restsWithin bs

def restsAfterSlash : List UInt8 → List (List UInt8)
  | [] => []
  | b :: bs => if b = slash then bs :: restsAfterSlash bs else restsAfterSlash bs

def ends : List UInt8 → List (List UInt8)
  | [] => [[]]
  | b :: bs => (b :: bs) :: ends bs

mutual

def restsOfPart : GlobPart → List UInt8 → List (List UInt8)
  | .byte x, b :: bs => if b = x then [bs] else []
  | .anyByte, b :: bs => if b = slash then [] else [bs]
  | .anyBytes, text => restsWithin text
  | .foldersFirst, text => text :: restsAfterSlash text
  | .foldersBetween, b :: bs => if b = slash then bs :: restsAfterSlash bs else []
  | .everythingBelow, b :: bs => if b = slash then ends bs else []
  | .oneOf negated ranges, b :: bs => if isInside b ranges != negated then [bs] else []
  | .either [], text => [text]
  | .either (branch :: branches), text => restsOfBranches (branch :: branches) text
  | _, [] => []

/-- What can be left after all parts of a pattern. -/
def restsOfParts : List GlobPart → List (List UInt8) → List (List UInt8)
  | [], texts => texts
  | part :: parts, texts =>
    restsOfParts parts (texts.flatMap fun text => restsOfPart part text).eraseDups

/-- What can be left after one of some patterns. -/
def restsOfBranches : List (List GlobPart) → List UInt8 → List (List UInt8)
  | [], _ => []
  | branch :: branches, text => restsOfParts branch [text] ++ restsOfBranches branches text

end

def matchesPath (glob : Glob) (path : List UInt8) : Bool :=
  match glob with
  | [.foldersFirst] => true
  | _ => (restsOfParts glob [path]).any (·.isEmpty)

mutual

def isOrdered : GlobPart → Bool
  | .oneOf _ ranges => (ranges.flatMap byteRanges).all fun (low, high) => low ≤ high
  | .either branches => areOrderedAll branches
  | _ => true

def areOrdered : List GlobPart → Bool
  | [] => true
  | part :: parts => isOrdered part && areOrdered parts

def areOrderedAll : List (List GlobPart) → Bool
  | [] => true
  | branch :: branches => areOrdered branch && areOrderedAll branches

end

/-- How many pieces a part is made of as an expression. -/
def pieces : GlobPart → Nat
  | .either [] => 0
  | .everythingBelow => 2
  | _ => 1

mutual

/-- How deep a part is nested as an expression: groups, choices, repetitions, classes and sequences
of several pieces count. -/
def depthOfPart : GlobPart → Nat
  | .byte _ => 0
  | .anyByte | .everythingBelow => 1
  | .anyBytes => 2
  | .foldersFirst | .foldersBetween => 4
  | .oneOf _ ranges => if (ranges.flatMap byteRanges).length ≤ 1 then 1 else 2
  | .either [] => 0
  | .either (branch :: branches) =>
    (if branches.isEmpty then 1 else 2) + depthOfBranches (branch :: branches)

@[inherit_doc depthOfPart]
def depthOfParts : List GlobPart → Nat
  | [] => 0
  | part :: parts => max (depthOfPart part) (depthOfParts parts)

@[inherit_doc depthOfPart]
def depthOfBranches : List (List GlobPart) → Nat
  | [] => 0
  | branch :: branches =>
    max ((if sumOf pieces branch ≤ 1 then 0 else 1) + depthOfParts branch)
      (depthOfBranches branches)

end

/-- How deep an expression may be nested. -/
def maxDepth : Nat := 250

/-- Whether a pattern can be run as an expression, as far as its form goes. -/
def isRunnable (glob : Glob) : Bool := areOrdered glob && depthOfParts glob < maxDepth

end Glob

/-- What makes patterns into one expression, by the lists of patterns for which it can. That may
depend on the list as a whole, such as on the size of the expression. -/
abbrev Engine := List Glob → Bool

/-- Refuses patterns for their form only. -/
def Engine.standard : Engine := fun globs => globs.all (·.isRunnable)

end CodeSurvey.Loading
