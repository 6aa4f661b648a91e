import CodeSurvey.Loading.Load
import CodeSurvey.Toml.Decoding
import CodeSurvey.Toml.Reader

namespace CodeSurvey

open Loading

structure ScannerSettings where
  /-- Patterns of paths to leave out besides those that are always left out. -/
  ignore : List String := []
  includeHidden : Bool := false
  maxFileSizeKb : Option UInt64 := none
  extensions : Option (List String) := none
deriving DecidableEq, Repr, Inhabited

structure Settings where
  scanner : ScannerSettings := {}
  threads : Option Nat := none
  /-- The name of a format for results. -/
  format : Option String := none
  color : Option Bool := none
deriving DecidableEq, Repr, Inhabited

namespace ScannerSettings

/-- Patterns of paths that are always left out. -/
def alwaysIgnored : List String :=
  ["node_modules/", "dist/", "build/", "coverage/", ".next/", "target/"]

variable (s : ScannerSettings)

/-- The patterns of paths to leave out, the own ones first. -/
def ignorePatterns : List String :=
  s.ignore ++ alwaysIgnored.filter fun p => !s.ignore.contains p

/-- The size that a file may have, in bytes counted by a word. The product is checked: nothing is the
result if it is no word. -/
def maxFileSize? : Option (Option UInt64) :=
  match s.maxFileSizeKb with
  | none => some none
  | some kb => if kb.toNat * 1024 < UInt64.size then some (some (kb * 1024)) else none

def loadOptions? : Option LoadOptions :=
  s.maxFileSize?.map fun limit => {
    extensions := s.extensions
    ignorePatterns := s.ignorePatterns
    includeHidden := s.includeHidden
    maxFileSize := limit.map (·.toNat) }

def decode? (v : Toml) : Option ScannerSettings := do
  match ← v.fields? ["ignore", "include_hidden", "max_file_size_kb", "extensions"] with
  | [ignore, includeHidden, maxFileSizeKb, extensions] =>
    some {
      ignore := (← Toml.optional? (·.texts?) ignore).getD []
      includeHidden := (← Toml.optional? (·.truth?) includeHidden).getD false
      maxFileSizeKb := (← Toml.optional? (·.nat?) maxFileSizeKb).map UInt64.ofNat
      extensions := ← Toml.optional? (·.texts?) extensions }
  | _ => none

end ScannerSettings

namespace Settings

def fileName : String := ".scoperc.toml"

def threads? (v : Toml) : Option (Option Nat) := do
  match ← v.fields? ["threads"] with
  | [threads] => Toml.optional? (·.nat?) threads
  | _ => none

def output? (v : Toml) : Option (Option String × Option Bool) := do
  match ← v.fields? ["format", "color"] with
  | [format, color] =>
    some (← Toml.optional? (·.text?) format, ← Toml.optional? (·.truth?) color)
  | _ => none

/-- Decodes settings. Sections that are missing have their defaults. -/
def decode? (entries : List (String × Toml)) : Option Settings := do
  let scanner ← Toml.optional? ScannerSettings.decode? (Toml.get? entries "scanner")
  let threads ← Toml.optional? threads? (Toml.get? entries "analysis")
  let output ← Toml.optional? output? (Toml.get? entries "output")
  some {
    scanner := scanner.getD {}
    threads := threads.join
    format := output.bind (·.1)
    color := output.bind (·.2) }

/-- The settings of the project at a path. If its file cannot be read as a whole, no part of it
counts. -/
def ofFolder (d : Disk) (path : String) : Settings :=
  (((d.text? (Paths.push path fileName)).bind Toml.ofText?).bind decode?).getD {}

end Settings

end CodeSurvey
