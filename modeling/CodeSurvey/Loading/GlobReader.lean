import CodeSurvey.Loading.Glob

namespace CodeSurvey.Loading.GlobReader

/-- Branches that match only the empty text do not count. -/
def isBlank (parts : List GlobPart) : Bool :=
  parts.all fun
    | .either [] => true
    | _ => false

/-- The state of reading. Parts come in reverse, as do the finished branches of the groups that are
open, the innermost group first. -/
structure State where
  parts : List GlobPart := []
  /-- Of each open group, the branches before this one, and the parts before the group. -/
  groups : List (List (List GlobPart) × List GlobPart) := []
  before : Option Char := none

namespace State

variable (s : State)

def push (part : GlobPart) : State := { s with parts := part :: s.parts }

def pushChar (c : Char) : State := { s with parts := (bytesOf c).reverse.map .byte ++ s.parts }

def after (c : Char) : State := { s with before := some c }

def pushTwoStars : State := (s.push .anyBytes).push .anyBytes

/-- Replaces the last part, a slash, by one that stands for whole folders. -/
def pushFolders (atEnd : Bool) : State :=
  match s.parts with
  | .foldersFirst :: _ => s
  | .everythingBelow :: _ => s
  | _ :: rest => { s with parts := (if atEnd then .everythingBelow else .foldersBetween) :: rest }
  | [] => s

def openGroup : State := { s with parts := [], groups := ([], s.parts) :: s.groups }

def branch (group : List (List GlobPart) × List GlobPart)
    (groups : List (List (List GlobPart) × List GlobPart)) : State :=
  { s with parts := [], groups := (s.parts.reverse :: group.1, group.2) :: groups }

/-- Ends the innermost group. -/
def close (group : List (List GlobPart) × List GlobPart)
    (groups : List (List (List GlobPart) × List GlobPart)) : State :=
  let branches := (s.parts.reverse :: group.1).reverse.filter (!isBlank ·)
  { s with parts := .either branches :: group.2, groups }

end State

/-- The ranges of a class after its opening bracket, and what follows the closing one. Ranges come
in reverse. Nothing is the result if the class does not end, and no ranges if one goes
backwards. -/
def classRanges? (first inRange : Bool) (ranges : List (Char × Char)) :
    List Char → Option (Option (List (Char × Char)) × List Char)
  | [] => none
  | c :: rest =>
    if c = ']' && !first then
      some (some (if inRange then ('-', '-') :: ranges else ranges).reverse, rest)
    else if c = '-' && !first && !inRange then classRanges? false true ranges rest
    else if inRange then
      match ranges with
      | (low, _) :: before =>
        if c < low then some (none, rest) else classRanges? false false ((low, c) :: before) rest
      | [] => none
    else classRanges? false false ((c, c) :: ranges) rest

def bracket? (cs : List Char) : Option (Option GlobPart × List Char) :=
  let (negated, cs) := match cs with
    | '!' :: rest => (true, rest)
    | '^' :: rest => (true, rest)
    | cs => (false, cs)
  (classRanges? true false [] cs).map fun (ranges, rest) => (ranges.map (.oneOf negated), rest)

def stars (s : State) (cs : List Char) : State × List Char :=
  if s.parts.isEmpty then
    match cs with
    | [] => ((s.push .foldersFirst).after '*', [])
    | '/' :: rest => ((s.push .foldersFirst).after '/', rest)
    | _ => ((s.pushTwoStars).after '*', cs)
  else if s.before ≠ some '/' then ((s.pushTwoStars).after '*', cs)
  else
    match cs with
    | [] => ((s.pushFolders true).after '*', [])
    | '/' :: rest => ((s.pushFolders false).after '/', rest)
    | c :: _ =>
      if (c = ',' || c = '\x7d') && !s.groups.isEmpty then
        ((s.pushFolders true).after '*', cs)
      else ((s.pushTwoStars).after '*', cs)

/-- Reads a pattern. With open classes, a bracket that is never closed stands for itself, and so do
all after it. -/
def parts? (openClasses : Bool) : (fuel : Nat) → State → List Char → Option Glob
  | _, s, [] => if s.groups.isEmpty then some s.parts.reverse else none
  | 0, _, _ => none
  | fuel + 1, s, c :: rest =>
    match c with
    | '?' => parts? openClasses fuel (s.push .anyByte |>.after c) rest
    | '*' =>
      match rest with
      | '*' :: rest =>
        let (s, rest) := stars s rest
        parts? openClasses fuel s rest
      | _ => parts? openClasses fuel (s.push .anyBytes |>.after c) rest
    | '[' =>
      match bracket? rest with
      | some (some part, after) => parts? openClasses fuel (s.push part |>.after ']') after
      | some (none, _) => none
      | none =>
        if openClasses then parts? openClasses fuel (s.pushChar c |>.after c) rest
        else none
    | '\x7b' => parts? openClasses fuel (s.openGroup.after c) rest
    | '\x7d' =>
      match s.groups with
      | [] => none
      | group :: groups => parts? openClasses fuel ((s.close group groups).after c) rest
    | ',' =>
      match s.groups with
      | [] => parts? openClasses fuel (s.pushChar c |>.after c) rest
      | group :: groups => parts? openClasses fuel ((s.branch group groups).after c) rest
    | '\\' =>
      match rest with
      | e :: rest => parts? openClasses fuel (s.pushChar e |>.after e) rest
      | [] => none
    | c => parts? openClasses fuel (s.pushChar c |>.after c) rest

end CodeSurvey.Loading.GlobReader

namespace CodeSurvey.Loading

def Glob.ofChars? (openClasses : Bool) (cs : List Char) : Option Glob :=
  GlobReader.parts? openClasses cs.length {} cs

end CodeSurvey.Loading
