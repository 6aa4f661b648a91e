import CodeSurvey.Paths.Segments

namespace CodeSurvey.Paths

inductive FileCategory where
  | key
  | config
  | other
deriving DecidableEq, Repr, Inhabited

namespace FileCategory

def label : FileCategory → String
  | key => "key"
  | config => "config"
  | other => "other"

/-- The name in serialised form. -/
def tag : FileCategory → String
  | key => "key_file"
  | config => "config_file"
  | other => "other_file"

end FileCategory

inductive KeyRule where
  | packageManifest | scriptEntry | frameworkConfig | frameworkConvention | htmlEntry | rust
  | python | go | jvm | rubyPhp | build | readme
deriving DecidableEq, Repr

namespace KeyRule

def name : KeyRule → String
  | packageManifest => "package-manifest"
  | scriptEntry => "js-entry"
  | frameworkConfig => "framework-config"
  | frameworkConvention => "framework-convention"
  | htmlEntry => "html-entry"
  | rust => "rust"
  | python => "python"
  | go => "go"
  | jvm => "jvm"
  | rubyPhp => "ruby-php"
  | build => "build"
  | readme => "readme"

def all : List KeyRule := [packageManifest, scriptEntry, frameworkConfig, frameworkConvention,
  htmlEntry, rust, python, go, jvm, rubyPhp, build, readme]

def combine (stems endings : List String) : List String :=
  stems.flatMap fun stem => endings.map (stem ++ ·)

def fileNames : KeyRule → List String
  | packageManifest => ["package.json", "composer.json"]
  | scriptEntry => combine ["index", "main", "app", "App", "server"]
      [".js", ".jsx", ".ts", ".tsx", ".mjs", ".cjs"]
  | frameworkConfig => combine ["vite", "webpack", "rollup", "next", "nuxt", "svelte", "astro",
      "tailwind", "postcss", "babel", "jest", "vitest"]
      [".config.js", ".config.ts", ".config.mjs", ".config.cjs"]
  | htmlEntry => ["index.htm", "index.html"]
  | rust => ["Cargo.toml"]
  | python => ["setup.py", "pyproject.toml", "requirements.txt", "manage.py", "__main__.py",
      "main.py", "app.py"]
  | go => ["go.mod", "main.go"]
  | jvm => "pom.xml" :: "Main.java" :: combine ["build", "settings"] [".gradle", ".gradle.kts"]
  | rubyPhp => ["Gemfile", "Rakefile", "config.ru", "index.php"]
  | build => ["Dockerfile", "Makefile", "CMakeLists.txt", "docker-compose.yml",
      "docker-compose.yaml"]
  | frameworkConvention | readme => []

/-- The folders and names that a rule accepts together. -/
def fileNamesIn : KeyRule → List (String × String)
  | frameworkConvention =>
    (combine ["_app", "_document"] [".js", ".jsx", ".ts", ".tsx"]).map ("pages", ·) ++
      (combine ["layout", "page"] [".js", ".jsx", ".ts", ".tsx"]).map ("app", ·)
  | rust => [("src", "main.rs"), ("src", "lib.rs")]
  | _ => []

/-- Whether a file starts an application, by the convention for its name. -/
def isApplication (file : String) : Bool :=
  let ending := "Application.java".toList
  let stem := file.toList.take (file.toList.length - ending.length)
  ending.isSuffixOf file.toList && stem.all fun c => c.isAlphanum || c = '_'

/-- Whether a rule accepts a file by its name and the folder that it is in, if any. -/
def accepts (rule : KeyRule) (folder : Option String) (file : String) : Bool :=
  rule.fileNames.contains file ||
    rule.fileNamesIn.any (fun (dir, name) => folder = some dir && name = file) ||
    (rule = jvm && isApplication file) || (rule = readme && folder = none && file = "README.md")

def matchesPath (rule : KeyRule) (path : String) : Bool :=
  match (segments path).reverse with
  | file :: folders => rule.accepts folders.head? file
  | [] => false

end KeyRule

def keyRule? (path : String) : Option KeyRule := KeyRule.all.find? (·.matchesPath path)

def classify (path : String) : FileCategory :=
  if (keyRule? path).isSome then .key
  else if ".json".toList.isSuffixOf path.toList then .config
  else .other

end CodeSurvey.Paths
