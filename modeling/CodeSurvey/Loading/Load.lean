import CodeSurvey.Collection.SortedMap
import CodeSurvey.Failure
import CodeSurvey.Loading.Walk
import CodeSurvey.Text.LowerCase

namespace CodeSurvey.Loading

def defaultExtensions : List String := [
  "js", "jsx", "mjs", "cjs", "ts", "tsx", "mts", "cts", "css", "html", "json", "md",
  "py", "java", "c", "h", "cpp", "hpp", "cs", "php", "rb", "go", "swift", "rs", "kt", "kts",
  "gradle", "dart", "lua", "pl", "r", "clj", "coffee", "fs", "hs", "m", "mm", "nim", "v",
  "groovy", "scala", "vb",
  "yml", "yaml", "xml", "ini", "toml", "env", "properties", "cfg", "tf", "csv", "tsv", "sql",
  "rss", "json5", "jsonc", "proto",
  "htm", "xhtml", "svg", "rst", "tex", "markdown", "adoc", "asciidoc", "txt", "log", "rtf",
  "odt", "org", "bib",
  "scss", "sass", "less", "stylus",
  "sh", "bat", "ps1", "tcl", "ejs", "hbs", "pug", "j2", "slim", "twig", "erb", "mustache",
  "njk",
  "vue", "svelte", "graphql", "gql", "lock", "conf", "gitattributes",
  "diff", "patch", "nix", "zsh", "fish"]

/-- Names without an extension that are loaded too, if no extensions are asked for. -/
def defaultNames : List String := ["Dockerfile", "Makefile", "Gemfile", "Rakefile"]

structure LoadOptions where
  extensions : Option (List String) := none
  /-- Patterns of paths to leave out. -/
  ignorePatterns : List String := []
  includeHidden : Bool := false
  maxFileSize : Option Nat := none
  followLinks : Bool := false
deriving DecidableEq, Repr, Inhabited

namespace LoadOptions

variable (o : LoadOptions)

def wantedExtensions : List String :=
  match o.extensions with
  | some extensions => extensions.map fun e =>
      Text.lower (String.ofList (e.toList.dropWhile (· = '.')))
  | none => defaultExtensions

/-- Whether a file is wanted by its name. A name that begins with its only dot is its own
extension. -/
def isWanted (name : String) : Bool :=
  let afterDot := match name.toList with
    | '.' :: rest => some (String.ofList rest)
    | _ => none
  match Paths.extensionOf? name <|> afterDot with
  | some extension => o.wantedExtensions.contains (Text.lower extension)
  | none => o.extensions.isNone && defaultNames.contains name

def wants (path : String) : Bool := o.isWanted ((Paths.fileName? path).getD "")

def overrides (engine : Engine) : List IgnoreRule :=
  IgnoreRule.ofLines engine false (o.ignorePatterns.map fun p => '!' :: p.toList)

end LoadOptions

/-- What became of a file. -/
inductive Outcome where
  | loaded (path content : String)
  | skipped
  | failed
deriving DecidableEq, Repr

def isAbove (limit : Option Nat) (size : Nat) : Bool :=
  match limit with
  | some n => n < size
  | none => false

def readFile (limit : Option Nat) (key : String) (node : FileNode) : Outcome :=
  match node with
  | .file content =>
    if isAbove limit content.size || content.toList.contains 0 then .skipped
    else match String.fromUTF8? content with
      | some text => .loaded key text
      | none => .skipped
  | .unreadable size => if isAbove limit size then .skipped else .failed
  | _ => .skipped

structure LoadedFiles where
  files : SortedMap String := {}
  skipped : Nat := 0
  errors : Nat := 0
  /-- How many files were read, with or without success. -/
  total : Nat := 0
deriving Inhabited

namespace LoadedFiles

def add (l : LoadedFiles) : Outcome → LoadedFiles
  | .loaded path content => { l with files := l.files.insert path content }
  | .skipped => { l with skipped := l.skipped + 1 }
  | .failed => { l with errors := l.errors + 1 }

/-- What is reported while files are read: how many are done, of how many. -/
def progress (l : LoadedFiles) : List (Nat × Nat) :=
  (List.range l.total).map fun n => (n + 1, l.total)

end LoadedFiles

mutual

def countNodes : FileNode → Nat
  | .folder entries => countEntries entries + 1
  | _ => 1

def countEntries : List (String × FileNode) → Nat
  | [] => 0
  | (_, node) :: rest => countNodes node + countEntries rest

end

def walkAt (root : FileNode) (start : List String) (o : LoadOptions) (engine : Engine) :
    WalkOptions where
  root
  start
  overrides := o.overrides engine
  includeHidden := o.includeHidden
  followLinks := o.followLinks
  engine

/-- The paths of the files at a path, before anything is said about their names. A dash stands for no
path. -/
def entriesAt (root : FileNode) (path : String) (start : List String) (o : LoadOptions)
    (engine : Engine) : List (String × FileNode) :=
  if path = "-" then [] else (walkAt root start o engine).entries path (countNodes root)

def load (d : Disk) (path : String) (o : LoadOptions) (engine : Engine := .standard) :
    Except Failure LoadedFiles :=
  match d.resolve? path with
  | none => .error (.notFound path)
  | some start =>
    let found := entriesAt d.top path start o engine
    let (wanted, others) := found.partition fun file => o.wants file.1
    let outcomes := wanted.map fun file =>
      readFile o.maxFileSize (Paths.relative path file.1) file.2
    .ok (outcomes.foldl LoadedFiles.add { skipped := others.length, total := wanted.length })

end CodeSurvey.Loading
