import CodeSurvey.Collection.SortedMap
import CodeSurvey.Paths.Segments

namespace CodeSurvey.Paths

/-- A line of a drawn tree: a segment, the folders above it, and whether it is the last entry of its
folder. -/
structure TreeLine where
  parent : List String
  name : String
  last : Bool
deriving DecidableEq, Repr

namespace TreeLine

def text (line : TreeLine) : String :=
  "".pushn ' ' (2 * line.parent.length) ++ (if line.last then "└── " else "├── ") ++ line.name ++
    "\n"

end TreeLine

/-- How many segments two paths have in common at the beginning. -/
def commonLength : List String → List String → Nat
  | a :: as, b :: bs => if a = b then commonLength as bs + 1 else 0
  | _, _ => 0

def isBelow (parent path : List String) : Bool :=
  parent.length < path.length && path.take parent.length = parent

/-- Whether no later path has another entry of the same folder. Only the paths that follow without a
gap are in the folder, as the paths are sorted. -/
def isLastEntry (parent : List String) (name : String) (later : List (List String)) : Bool :=
  (later.takeWhile (isBelow parent)).all (·[parent.length]? = some name)

def linesFor (before path : List String) (later : List (List String)) : List TreeLine :=
  (path.zipIdx.drop (commonLength before path)).map fun (name, depth) =>
    ⟨path.take depth, name, isLastEntry (path.take depth) name later⟩

def treeLines (before : List String) : List (List String) → List TreeLine
  | [] => []
  | path :: later => linesFor before path later ++ treeLines path later

/-- Paths in increasing order, each one once. -/
def sorted (paths : List String) : List String :=
  (SortedMap.ofList (paths.map (·, ()))).keys

/-- Draws a set of paths, given in any order. -/
def drawTree (paths : List String) : String :=
  String.join ((treeLines [] ((sorted paths).map segments)).map (·.text))

end CodeSurvey.Paths
