import CodeSurvey.Loading.FileSystem
import CodeSurvey.Loading.IgnoreRule

namespace CodeSurvey.Loading

/-- The rules that a folder brings, by the kind of file that they come from. Files of rules may be
meant for this program, for any program of its kind, or for version control. -/
structure Level where
  /-- How many segments lead to the folder. -/
  depth : Nat
  own : List IgnoreRule
  general : List IgnoreRule
  shared : List IgnoreRule
  excluded : List IgnoreRule
deriving Inhabited

structure WalkOptions where
  root : FileNode
  start : List String
  /-- Rules that come before all others; they only leave out. -/
  overrides : List IgnoreRule
  includeHidden : Bool
  followLinks : Bool
  engine : Engine

def rulesAt (engine : Engine) (root : FileNode) (place : List String) (path : String) :
    List IgnoreRule :=
  match ((root.resolveFrom? place path).bind (root.descend? ·)).bind (·.bytes?) with
  | some content => IgnoreRule.ofLines engine true (IgnoreRule.linesOf content)
  | none => []

def levelAt (engine : Engine) (root : FileNode) (depth : Nat) (place : List String) : Level where
  depth
  own := rulesAt engine root place ".scopeignore"
  general := rulesAt engine root place ".ignore"
  shared := rulesAt engine root place ".gitignore"
  excluded := rulesAt engine root place ".git/info/exclude"

def levelsAbove (engine : Engine) (root : FileNode) (place : List String) : List Level :=
  ((List.range place.length).map fun depth =>
    levelAt engine root depth (place.take depth)).reverse

def pathBytes (segments : List String) : List UInt8 := ("/".intercalate segments).toUTF8.toList

/-- What the rules of one kind say, those of the nearest folder first. -/
def verdictOf (levels : List Level) (rules : Level → List IgnoreRule) (full : List String)
    (isFolder : Bool) : Verdict :=
  levels.foldl (fun v level =>
    v.orElse (IgnoreRule.verdict (rules level) (pathBytes (full.drop level.depth)) isFolder))
    .unknown

namespace WalkOptions

variable (o : WalkOptions)

def levelVerdict (levels : List Level) (path : List String) (isFolder : Bool) : Verdict :=
  let full := o.start ++ path
  [Level.own, Level.general, Level.shared, Level.excluded].foldl (fun v rules =>
    v.orElse (verdictOf levels rules full isFolder)) .unknown

/-- Whether a path is left out. Hidden files are, unless a rule keeps them. -/
def leavesOut (levels : List Level) (path : List String) (isFolder : Bool) : Bool :=
  let name := path.getLastD ""
  name = ".git" ||
    IgnoreRule.verdict o.overrides (pathBytes path) isFolder ≠ .unknown ||
      match o.levelVerdict levels path isFolder with
      | .ignored => true
      | .kept => false
      | .unknown => !o.includeHidden && name.startsWith "."

/-- What an entry of a folder is, links followed if wanted, and its place. Links to nothing, and to
folders in which the walk already is, are nothing. -/
def target? (above : List (List String)) (place : List String) (name : String) (node : FileNode) :
    Option (List String × FileNode) :=
  match node with
  | .link path =>
    if o.followLinks then
      match o.root.resolveFrom? place path with
      | some target =>
        match o.root.descend? target with
        | some found =>
          if found.isFolder && above.contains target then none else some (target, found)
        | none => none
      | none => none
    else some (place ++ [name], node)
  | node => some (place ++ [name], node)

/-- The files below a folder, by their paths from the start of the walk. Given are the levels of
rules, the places of the folders in which the walk is, the path of this one, and its entries. -/
def files : (fuel : Nat) → List Level → List (List String) → List String →
    List (String × FileNode) → List (List String × FileNode)
  | 0, _, _, _, _ => []
  | fuel + 1, levels, above, path, entries =>
    let place := above.headD []
    entries.flatMap fun (name, node) =>
      match o.target? above place name node with
      | none => []
      | some (target, found) =>
        let here := path ++ [name]
        if o.leavesOut levels here found.isFolder then []
        else
          match found with
          | .folder inner =>
            let level := levelAt o.engine o.root (o.start.length + here.length) target
            files fuel (level :: levels) (target :: above) here inner
          | .link _ => []
          | file => [(here, file)]

/-- More folders than a walk is ever in at once: links lead at most to each folder of the file
system, and at most to as many below it. -/
def maxNesting (nodes : Nat) : Nat := (nodes + 2) * (nodes + 2)

/-- The files that a walk finds, by the names that lead there. If it starts at a file, that is the
only one. -/
def walk (nodes : Nat) : List (List String × FileNode) :=
  match o.root.descend? o.start with
  | some (.folder entries) =>
    let levels := levelAt o.engine o.root o.start.length o.start ::
      levelsAbove o.engine o.root o.start
    o.files (maxNesting nodes) levels [o.start] [] entries
  | some node => [([], node)]
  | none => []

/-- What a walk hands on: each file under its path, which begins with the path of the start as it is
written. -/
def entries (written : String) (nodes : Nat) : List (String × FileNode) :=
  (o.walk nodes).map fun (names, node) => (Paths.walked written names, node)

end WalkOptions

end CodeSurvey.Loading
