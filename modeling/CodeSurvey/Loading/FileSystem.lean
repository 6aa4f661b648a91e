import CodeSurvey.Paths.Components

namespace CodeSurvey.Loading

inductive FileNode where
  | file (content : ByteArray)
  /-- A file of some size whose content cannot be read. -/
  | unreadable (size : Nat)
  | folder (entries : List (String × FileNode))
  | link (target : String)
deriving Inhabited

inductive WriteFailure where
  | missing
  | notFolder
  | isFolder
deriving DecidableEq, Repr

def WriteFailure.message : WriteFailure → String
  | missing => "No such file or directory (os error 2)"
  | notFolder => "Not a directory (os error 20)"
  | isFolder => "Is a directory (os error 21)"

namespace FileNode

def isFolder : FileNode → Bool
  | folder _ => true
  | _ => false

def child? (name : String) : FileNode → Option FileNode
  | folder entries => (entries.find? (·.1 = name)).map (·.2)
  | _ => none

/-- What stands at the end of a way down through folders. -/
def descend? (node : FileNode) : List String → Option FileNode
  | [] => some node
  | name :: rest => match node.child? name with
    | some child => child.descend? rest
    | none => none

/-- Replaces an entry, or adds one at the end. -/
def putEntry (name : String) (node : FileNode) : List (String × FileNode) → List (String × FileNode)
  | [] => [(name, node)]
  | (n, old) :: rest => if n = name then (n, node) :: rest else (n, old) :: putEntry name node rest

/-- Puts a node at a place. Folders on the way are added where nothing is. -/
def put (node : FileNode) : List String → FileNode → FileNode
  | [], _ => node
  | name :: rest, old =>
    let entries := match old with
      | folder entries => entries
      | _ => []
    folder (putEntry name (put node rest ((old.child? name).getD (folder []))) entries)

/-- How many links a look-up follows at most. -/
def maxLinks : Nat := 40

/-- Looks up the steps of a path from a place, given in reverse like the result. The result is free
of links. What is above the top is the top. -/
def lookUp (top : FileNode) : (fuel links : Nat) → List String → List String →
    Option (List String)
  | 0, _, _, _ => none
  | _ + 1, _, place, [] => some place
  | fuel + 1, links, place, step :: rest =>
    match top.descend? place.reverse with
    | some (folder entries) =>
      if step = "" || step = "." then lookUp top fuel links place rest
      else if step = ".." then lookUp top fuel links place.tail rest
      else
        match (folder entries).child? step with
        | some (link target) =>
          if links = 0 then none
          else lookUp top fuel (links - 1) (if Paths.isAbsolute target then [] else place)
            (Paths.segments target ++ rest)
        | some _ => lookUp top fuel links (step :: place) rest
        | none => none
    | _ => none

def lookUpFuel : Nat := 100000

/-- The place that a path leads to from a folder, with all links followed. -/
def resolveFrom? (top : FileNode) (start : List String) (path : String) : Option (List String) :=
  if path = "" then none
  else (lookUp top lookUpFuel maxLinks (if Paths.isAbsolute path then [] else start.reverse)
    (Paths.segments path)).map List.reverse

def bytes? : FileNode → Option ByteArray
  | file content => some content
  | _ => none

/-- The place of a file to be written: the folder that it is in must exist. A link to nothing is
followed once. -/
def placeFor (top : FileNode) : (links : Nat) → (start : List String) → String →
    Except WriteFailure (List String)
  | links, start, path =>
    match top.resolveFrom? start path with
    | some place =>
      match top.descend? place with
      | some node => if node.isFolder then .error .isFolder else .ok place
      | none => .error .missing
    | none =>
      let steps := Paths.segments path
      let above := "/".intercalate (steps.dropLast ++ ["."])
      match top.resolveFrom? start above, steps.getLast? with
      | some place, some name =>
        if name = "" then .error .isFolder
        else
          match (top.descend? place).bind (child? name), links with
          | some (link target), links + 1 => placeFor top links place target
          | some _, _ => .error .notFolder
          | none, _ => .ok (place ++ [name])
      | _, _ =>
        if (List.range steps.length).any fun n =>
            ((top.resolveFrom? start ("/".intercalate (steps.take (n + 1)))).bind
              top.descend?).any (!·.isFolder) then .error .notFolder
        else .error .missing

end FileNode

/-- All files of a machine, and the folder in which a program runs. -/
structure Disk where
  top : FileNode
  current : List String
deriving Inhabited

/-- A program that runs in the top folder. -/
def FileNode.disk (top : FileNode) : Disk := { top, current := [] }

namespace Disk

variable (d : Disk)

/-- The place that a path leads to. -/
def resolve? (path : String) : Option (List String) := d.top.resolveFrom? d.current path

def find? (path : String) : Option FileNode := (d.resolve? path).bind d.top.descend?

def text? (path : String) : Option String :=
  ((d.find? path).bind (·.bytes?)).bind String.fromUTF8?

def write (path : String) (content : ByteArray) : Except WriteFailure Disk :=
  (d.top.placeFor FileNode.maxLinks d.current path).map fun place =>
    { d with top := FileNode.put (.file content) place d.top }

end Disk

end CodeSurvey.Loading
