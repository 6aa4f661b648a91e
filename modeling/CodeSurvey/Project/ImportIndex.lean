import CodeSurvey.Json.Decoding

namespace CodeSurvey

structure ImportIndex where
  entries : List (String × List String) := []
deriving DecidableEq, Repr, Inhabited

namespace ImportIndex

def addPath (path : String) (paths : List String) : List String :=
  if paths.contains path then paths else paths ++ [path]

/-- Changes the paths of a module, which is added at the end if it is new. -/
def update (f : List String → List String) (module : String) :
    List (String × List String) → List (String × List String)
  | [] => [(module, f [])]
  | (m, paths) :: rest =>
    if m = module then (m, f paths) :: rest else (m, paths) :: update f module rest

variable (index : ImportIndex)

def record (module path : String) : ImportIndex := ⟨update (addPath path) module index.entries⟩

def mention (module : String) : ImportIndex := ⟨update id module index.entries⟩

def recordAll (module : String) (paths : List String) : ImportIndex :=
  paths.foldl (·.record module) (index.mention module)

def ofEntries (entries : List (String × List String)) : ImportIndex :=
  entries.foldl (fun index (module, paths) => index.recordAll module paths) {}

def get? (module : String) : Option (List String) :=
  (index.entries.find? (·.1 = module)).map (·.2)

def size : Nat := index.entries.length

def isEmpty : Bool := index.entries.isEmpty

def json : Json := .object (index.entries.map fun (module, paths) => (module, .ofStrings paths))

def decode? (w : WrittenJson) : Option ImportIndex :=
  (w.entries? (·.list? (·.text?))).map ofEntries

end ImportIndex

end CodeSurvey
