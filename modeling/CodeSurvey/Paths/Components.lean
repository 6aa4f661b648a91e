import CodeSurvey.Paths.Segments

namespace CodeSurvey.Paths

inductive Component where
  | root
  /-- A dot in front of a relative path. Other dots do not count. -/
  | current
  | parent
  | name (text : String)
deriving DecidableEq, Repr

def Component.text : Component → String
  | root => "/"
  | current => "."
  | parent => ".."
  | name text => text

def Component.ofStep (step : String) : Component := if step = ".." then .parent else .name step

def isAbsolute (path : String) : Bool := path.toList.head? = some '/'

def beginning (path : String) : List Component :=
  if isAbsolute path then [.root]
  else if (segments path).head? = some "." then [.current]
  else []

def components (path : String) : List Component :=
  beginning path ++ ((segments path).filter isStep).map .ofStep

def push (folder name : String) : String :=
  if isAbsolute name then name
  else if folder = "" || folder.toList.getLast? = some '/' then folder ++ name
  else folder ++ "/" ++ name

def walked (root : String) (names : List String) : String := names.foldl push root

/-- What is left of a path behind a root. A path that does not begin with the root is kept whole. -/
def relative (root path : String) : String :=
  let parts := components path
  let below := if (components root).isPrefixOf parts then parts.drop (components root).length
    else parts
  "/".intercalate (below.map (·.text))

end CodeSurvey.Paths
