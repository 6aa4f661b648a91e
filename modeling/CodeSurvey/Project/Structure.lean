import CodeSurvey.Digest.Summary
import CodeSurvey.Json.Decoding
import CodeSurvey.Json.Printer
import CodeSurvey.Json.Reader
import CodeSurvey.Paths.Classification
import CodeSurvey.Paths.Tree

namespace CodeSurvey.Project

open Paths WrittenJson

/-- The content of a configuration file: a value if it can be read, else its text. -/
inductive ConfigEntry where
  | json (value : Json)
  | raw (text : String)
deriving Inhabited, BEq, Repr

namespace ConfigEntry

def ofText (content : String) : ConfigEntry :=
  match Json.ofText? content with
  | some value => json value
  | none => raw content

def display : ConfigEntry → String
  | json value => value.pretty
  | raw text => text

def toJson : ConfigEntry → Json
  | json value => value
  | raw text => .string text

/-- Decodes an entry that stands below some levels of other values. The result is always a value:
texts become strings. -/
def decode? (level : Nat) (w : WrittenJson) : Option ConfigEntry :=
  if w.depth + level ≤ Json.maxDepth then w.value?.map json else none

end ConfigEntry

structure Structure where
  tree : String := ""
  keyFiles : SortedMap String := {}
  digests : SortedMap String := {}
  configs : SortedMap ConfigEntry := {}
deriving Inhabited

/-- What is kept of a single file. -/
inductive Kept where
  | whole (text : String)
  | digest (text : String)
  | config (entry : ConfigEntry)
deriving Inhabited

def Kept.ofFile (path content : String) : Kept :=
  match classify path with
  | .key => whole content
  | .config => config (.ofText content)
  | .other => digest (Digest.digestFile path content).text

def Structure.place (s : Structure) (path : String) : Kept → Structure
  | .whole text => { s with keyFiles := s.keyFiles.insert path text }
  | .digest text => { s with digests := s.digests.insert path text }
  | .config entry => { s with configs := s.configs.insert path entry }

/-- The structure of some files. Each is looked at by itself before anything is placed. -/
def Structure.ofFiles (files : SortedMap String) : Structure :=
  (files.entries.map fun (path, content) => (path, Kept.ofFile path content)).foldl
    (fun s (path, kept) => s.place path kept) { tree := drawTree files.keys }

namespace Structure

variable (s : Structure)

def size : Nat := s.keyFiles.size + s.digests.size + s.configs.size

def isEmpty : Bool := s.size = 0

def category? (path : String) : Option FileCategory :=
  if s.keyFiles.contains path then some .key
  else if s.configs.contains path then some .config
  else if s.digests.contains path then some .other
  else none

def json : Json :=
  .object [("tree", .string s.tree), ("key_files", .ofMap .string s.keyFiles),
    ("abstract_files", .ofMap .string s.digests), ("configs", .ofMap (·.toJson) s.configs)]

def decode? (w : WrittenJson) : Option Structure := do
  match ← w.record? ["tree", "key_files", "abstract_files", "configs"] with
  | [tree, keyFiles, digests, configs] => some {
      tree := ← tree.text?, keyFiles := ← keyFiles.map? text?, digests := ← digests.map? text?
      configs := ← configs.map? (ConfigEntry.decode? 2) }
  | _ => none

end Structure

end CodeSurvey.Project
