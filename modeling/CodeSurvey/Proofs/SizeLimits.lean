import CodeSurvey.CommandLine.Run
import CodeSurvey.Proofs.TomlWords
import CodeSurvey.Proofs.WiderOptions
import Mathlib.Algebra.Group.Nat.Defs

namespace CodeSurvey

namespace Loading

def FileNode.size? : FileNode → Option Nat
  | file content => some content.size
  | unreadable size => some size
  | folder _ | link _ => none

variable {o p : LoadOptions} {disk : Disk} {node : FileNode} {path key : String}
  {start : List String} {file : List String × FileNode} {found : List (List String × FileNode)}
  {limit size : Nat}

theorem readFile_of_le (h : node.size? = some size) (le : size ≤ limit) :
    readFile (some limit) key node = readFile none key node := by
  have allowed : isAbove (some limit) size = isAbove none size :=
    decide_eq_false (Nat.not_lt.mpr le)
  cases node with
  | file content =>
    obtain rfl := Option.some.inj h
    rw [readFile, readFile, allowed]
  | unreadable size =>
    obtain rfl := Option.some.inj h
    rw [readFile, readFile, allowed]
  | folder | link => rfl

namespace LoadOptions

theorem fate_of_le (given : o.maxFileSize = some limit) (h : file.2.size? = some size)
    (le : size ≤ limit) :
    o.fate path file = ({ o with maxFileSize := none } : LoadOptions).fate path file := by
  unfold fate
  rw [given, readFile_of_le h le]
  rfl

/-- Whether all files that are not skipped with some options fare in the same way with others. -/
def Keeps (o p : LoadOptions) : Prop :=
  ∀ path file, o.fate path file ≠ .skipped → p.fate path file = o.fate path file

theorem isWanted_of_fate (h : o.fate path file ≠ .skipped) :
    o.isWanted (nameOf path file.1) = true := by
  by_contra unwanted
  exact h (if_neg unwanted)

theorem keeps_of_limitWithin {low high : Option Nat} (o : LoadOptions) (higher : LimitWithin low high) :
    ({ o with maxFileSize := low } : LoadOptions).Keeps { o with maxFileSize := high } := by
  intro path file taken
  have wanted : ({ o with maxFileSize := low } : LoadOptions).isWanted (nameOf path file.1) = true :=
    isWanted_of_fate taken
  exact fate_wider (p := { o with maxFileSize := high }) wanted higher taken

end LoadOptions

variable {few many : LoadedFiles}

open Classical in
theorem LoadedFiles.Accounts.skipped_eq (accounts : few.Accounts o path found) :
    few.skipped = found.countP fun file => o.fate path file = .skipped := by
  refine accounts.skipped.trans (List.countP_congr fun file _ => ?_)
  rw [decide_eq_true_iff, decide_eq_true_iff, fate_eq_skipped_iff]

theorem LoadedFiles.Accounts.keeps (kept : o.Keeps p) (fewer : few.Accounts o path found)
    (more : many.Accounts p path found) : few.Within many ∧ many.skipped ≤ few.skipped := by
  constructor
  · intro key text entry
    obtain ⟨file, mem, loaded⟩ := fewer.get?_eq_some_iff.mp entry
    have same := kept path file (by rw [loaded]; exact nofun)
    exact more.get?_eq_some_iff.mpr ⟨file, mem, same.trans loaded⟩
  · rw [fewer.skipped_eq, more.skipped_eq]
    apply List.countP_mono_left
    intro file _ skipped
    have skipped := of_decide_eq_true skipped
    apply decide_eq_true
    by_contra taken
    rw [kept path file taken] at skipped
    exact taken skipped

theorem load_keeps {low high : Option Nat} (proper : disk.top.Proper)
    (h : disk.resolve? path = some start) (o : LoadOptions) (engine : Engine)
    (higher : LimitWithin low high) :
    ∃ few many, load disk path { o with maxFileSize := low } engine = .ok few ∧
      load disk path { o with maxFileSize := high } engine = .ok many ∧
      few.Within many ∧ many.skipped ≤ few.skipped := by
  have loaded := load_eq proper h { o with maxFileSize := low } engine
  have loadedMore := load_eq proper h { o with maxFileSize := high } engine
  have fewer := accounts_load proper h loaded
  have more := accounts_load proper h loadedMore
  exact ⟨_, _, loaded, loadedMore, fewer.keeps (o.keeps_of_limitWithin higher) more⟩

end Loading

open Loading

namespace ScannerSettings

def limitedTo (s : ScannerSettings) (k : Nat) : ScannerSettings :=
  { s with maxFileSizeKb := some (UInt64.ofNat k) }

variable {s : ScannerSettings} {k : Nat}

theorem toNat_ofNat_of_lt (word : k < 2 ^ 63) : (UInt64.ofNat k).toNat = k :=
  UInt64.toNat_ofNat_of_lt' (word.trans (by decide))

theorem maxFileSize?_limitedTo (s : ScannerSettings) (lt : k < 2 ^ 54) :
    ((s.limitedTo k).maxFileSize?).map (·.map (·.toNat)) = some (some (1024 * k)) := by
  have same := toNat_ofNat_of_lt (lt.trans (by decide))
  have unit : UInt64.toNat 1024 = 1024 := rfl
  have product : (UInt64.ofNat k * 1024).toNat = 1024 * k := by
    rw [UInt64.toNat_mul, same, unit, Nat.mul_comm]
    exact Nat.mod_eq_of_lt (by omega)
  have fits : (UInt64.ofNat k).toNat * 1024 < UInt64.size := by
    rw [same, UInt64.size]
    omega
  rw [maxFileSize?, limitedTo]
  dsimp only
  rw [if_pos fits, Option.map_some, Option.map_some, product]

theorem maxFileSize?_limitedTo_eq_none (s : ScannerSettings) (le : 2 ^ 54 ≤ k) (word : k < 2 ^ 63) :
    (s.limitedTo k).maxFileSize? = none := by
  have above : ¬(UInt64.ofNat k).toNat * 1024 < UInt64.size := by
    rw [toNat_ofNat_of_lt word, UInt64.size]
    omega
  rw [maxFileSize?, limitedTo]
  exact if_neg above

def optionsWithin (s : ScannerSettings) (limit : Nat) : LoadOptions where
  extensions := s.extensions
  ignorePatterns := s.ignorePatterns
  includeHidden := s.includeHidden
  maxFileSize := some limit

theorem loadOptions?_limitedTo (s : ScannerSettings) (lt : k < 2 ^ 54) :
    (s.limitedTo k).loadOptions? = some (s.optionsWithin (1024 * k)) := by
  obtain ⟨limit, counted, bytes⟩ := Option.map_eq_some_iff.mp (s.maxFileSize?_limitedTo lt)
  rw [loadOptions?, counted, Option.map_some, bytes]
  rfl

def limit? (v : Toml) : Option Nat :=
  (v.fields? ["ignore", "include_hidden", "max_file_size_kb", "extensions"]).bind fun fields =>
    fields[2]?.join.bind Toml.nat?

theorem exists_of_limit? {v : Toml} (h : limit? v = some k) :
    ∃ fields, v.fields? ["ignore", "include_hidden", "max_file_size_kb", "extensions"] = some fields ∧
      fields[2]? = some (some (.integer k)) := by
  obtain ⟨fields, read, h⟩ := Option.bind_eq_some_iff.mp h
  obtain ⟨entry, there, value⟩ := Option.bind_eq_some_iff.mp h
  rw [Toml.nat?_eq_some_iff.mp value] at there
  exact ⟨fields, read, Option.join_eq_some_iff.mp there⟩

theorem eq_limitedTo_of_limit? {v : Toml} (decoded : decode? v = some s) (given : limit? v = some k) :
    s = s.limitedTo k := by
  obtain ⟨fields, read, there⟩ := exists_of_limit? given
  unfold decode? at decoded
  rw [read, Option.bind_eq_bind, Option.bind_some] at decoded
  split at decoded
  next ignore hidden size extensions =>
    obtain rfl : size = some (.integer k) := Option.some.inj there
    obtain ⟨_, -, decoded⟩ := Option.bind_eq_some_iff.mp decoded
    obtain ⟨_, -, decoded⟩ := Option.bind_eq_some_iff.mp decoded
    obtain ⟨_, decodedSize, decoded⟩ := Option.bind_eq_some_iff.mp decoded
    obtain ⟨_, -, decoded⟩ := Option.bind_eq_some_iff.mp decoded
    rw [Toml.optional?, Toml.nat?_eq_some_iff.mpr rfl] at decodedSize
    obtain rfl := Option.some.inj decodedSize
    obtain rfl := Option.some.inj decoded
    rfl
  next => cases decoded

end ScannerSettings

namespace Settings

variable {entries : List (String × Toml)} {settings : Settings} {k : Nat}

def limit? (entries : List (String × Toml)) : Option Nat :=
  (Toml.get? entries "scanner").bind ScannerSettings.limit?

theorem scanner_of_limit? (decoded : decode? entries = some settings) (given : limit? entries = some k) :
    settings.scanner = settings.scanner.limitedTo k := by
  obtain ⟨v, found, given⟩ := Option.bind_eq_some_iff.mp given
  obtain ⟨scanner, optional, decoded⟩ := Option.bind_eq_some_iff.mp decoded
  rw [found] at optional
  obtain ⟨s, decodedScanner, rfl⟩ := Option.map_eq_some_iff.mp optional
  obtain ⟨threads, -, decoded⟩ := Option.bind_eq_some_iff.mp decoded
  obtain ⟨output, -, decoded⟩ := Option.bind_eq_some_iff.mp decoded
  obtain rfl := Option.some.inj decoded
  exact ScannerSettings.eq_limitedTo_of_limit? decodedScanner given

theorem lt_of_limit? {text : String} (read : Toml.ofText? text = some entries)
    (given : limit? entries = some k) : k < 2 ^ 63 := by
  obtain ⟨v, found, given⟩ := Option.bind_eq_some_iff.mp given
  obtain ⟨fields, listed, there⟩ := ScannerSettings.exists_of_limit? given
  have section_words : v.Words := .of_get? (Toml.words_of_ofText? read) found
  have words := section_words.of_fields? listed (List.mem_of_getElem? there)
  cases words with
  | integer word =>
    have bound : (k : Int) < 9223372036854775808 := word.2
    omega

variable {disk : Disk} {path text : String}

theorem ofFolder_of_decoded (there : disk.text? (Paths.push path fileName) = some text)
    (read : Toml.ofText? text = some entries) (decoded : decode? entries = some settings) :
    ofFolder disk path = settings := by
  rw [ofFolder, there, Option.bind_some, read, Option.bind_some, decoded, Option.getD_some]

open CommandLine in
theorem run_of_overflow {i : Invocation} (same : ofFolder disk i.task.path = settings)
    (above : settings.scanner.loadOptions? = none) (colors : Bool) (engine : Engine) :
    i.run colors disk engine = .error .overflow := by
  unfold Invocation.run
  dsimp only
  rw [same, above]

open CommandLine in
/-- A limit that settings give in units of 1024 bytes is counted in bytes below 2^54. There all files
within it fare as without a limit, and a lower one loses no fewer of them. From 2^54 on no word of
bytes has room for it, and every command for the folder is stopped. -/
theorem limit_ofFolder (there : disk.text? (Paths.push path fileName) = some text)
    (read : Toml.ofText? text = some entries) (decoded : decode? entries = some settings)
    (given : limit? entries = some k) :
    ofFolder disk path = settings ∧ k < 2 ^ 63 ∧
      (2 ^ 54 ≤ k → settings.scanner.loadOptions? = none ∧
        ∀ (i : Invocation) (colors : Bool) (engine : Engine), i.task.path = path →
          i.run colors disk engine = .error .overflow) ∧
      (k < 2 ^ 54 → ∃ o, settings.scanner.loadOptions? = some o ∧
        o.maxFileSize = some (1024 * k) ∧
        (∀ place file size, file.2.size? = some size → size ≤ 1024 * k →
          o.fate place file = ({ o with maxFileSize := none } : LoadOptions).fate place file) ∧
        ∀ lower ≤ k, ∃ p, (settings.scanner.limitedTo lower).loadOptions? = some p ∧
          p.maxFileSize = some (1024 * lower) ∧ p.Keeps o ∧
          ∀ (project : Disk) (place : String) (start : List String) (engine : Engine),
            project.top.Proper → project.resolve? place = some start →
            ∃ few many, load project place p engine = .ok few ∧
              load project place o engine = .ok many ∧
              few.Within many ∧ many.skipped ≤ few.skipped) := by
  have scanner := scanner_of_limit? decoded given
  have word := lt_of_limit? read given
  have same := ofFolder_of_decoded there read decoded
  refine ⟨same, word, fun large => ?_, fun small => ?_⟩
  · have above : settings.scanner.loadOptions? = none := by
      rw [scanner, ScannerSettings.loadOptions?,
        settings.scanner.maxFileSize?_limitedTo_eq_none large word]
      rfl
    refine ⟨above, fun i colors engine here => run_of_overflow ?_ above colors engine⟩
    rw [here, same]
  · have options : settings.scanner.loadOptions? =
        some (settings.scanner.optionsWithin (1024 * k)) := by
      rw [← settings.scanner.loadOptions?_limitedTo small, ← scanner]
    refine ⟨_, options, rfl, fun place file size known le => LoadOptions.fate_of_le rfl known le,
      fun lower le => ?_⟩
    have higher : LimitWithin (some (1024 * lower)) (some (1024 * k)) := by
      intro n eq
      obtain rfl := Option.some.inj eq
      exact ⟨_, rfl, Nat.mul_le_mul_left 1024 le⟩
    exact ⟨_, settings.scanner.loadOptions?_limitedTo (lt_of_le_of_lt le small), rfl,
      (settings.scanner.optionsWithin (1024 * k)).keeps_of_limitWithin higher,
      fun project place start engine proper found =>
        load_keeps proper found (settings.scanner.optionsWithin (1024 * k)) engine higher⟩

section Samples

def limitedFolder (limit : String) : FileNode := .folder [
  (fileName, .file ("[scanner]\nmax_file_size_kb = " ++ limit).toUTF8),
  ("a.js", .file ⟨#[120]⟩)]

theorem limitedFolder_proper (limit : String) : (limitedFolder limit).Proper := by
  refine .folder (by simp [fileName]) ?_ ?_
  · simp only [List.forall_mem_cons]
    exact ⟨by decide, by decide, nofun⟩
  · simp only [List.forall_mem_cons]
    exact ⟨.file _, .file _, nofun⟩

def limited (k : Nat) : Settings := { scanner := ScannerSettings.limitedTo {} k }

theorem exists_decoded (given : (Toml.ofText? text).bind limit? = some k)
    (decoded : (Toml.ofText? text).bind decode? = some settings) :
    ∃ entries, Toml.ofText? text = some entries ∧ decode? entries = some settings ∧
      limit? entries = some k := by
  obtain ⟨entries, read, given⟩ := Option.bind_eq_some_iff.mp given
  rw [read] at decoded
  exact ⟨entries, read, decoded, given⟩

def tally (l : LoadedFiles) : Nat × List String := (l.skipped, l.files.keys)

theorem limit_ofFolder_sample :
    ∃ entries o p few many,
      (limitedFolder "2").disk.text? (Paths.push "." fileName) =
        some "[scanner]\nmax_file_size_kb = 2" ∧
      Toml.ofText? "[scanner]\nmax_file_size_kb = 2" = some entries ∧
      decode? entries = some (limited 2) ∧ limit? entries = some 2 ∧
      ofFolder (limitedFolder "2").disk "." = limited 2 ∧
      (limited 2).scanner.loadOptions? = some o ∧ o.maxFileSize = some 2048 ∧
      ((limited 2).scanner.limitedTo 0).loadOptions? = some p ∧
      load (limitedFolder "2").disk "." p = .ok few ∧
      load (limitedFolder "2").disk "." o = .ok many ∧
      few.Within many ∧ tally few = (1, []) ∧ tally many = (0, ["a.js"]) := by
  have there : (limitedFolder "2").disk.text? (Paths.push "." fileName) =
      some "[scanner]\nmax_file_size_kb = 2" := by decide +kernel
  obtain ⟨entries, read, decoded, given⟩ :=
    @exists_decoded (limited 2) 2 "[scanner]\nmax_file_size_kb = 2" (by decide +kernel)
      (by decide +kernel)
  obtain ⟨same, -, -, small⟩ := limit_ofFolder there read decoded given
  obtain ⟨o, options, limit, -, lower⟩ := small (by decide)
  obtain ⟨p, optionsLow, -, -, keeps⟩ := lower 0 (by decide)
  obtain rfl := Option.some.inj (((limited 2).scanner.loadOptions?_limitedTo
    (show 2 < 2 ^ 54 by decide)).symm.trans options)
  obtain rfl := Option.some.inj (((limited 2).scanner.loadOptions?_limitedTo
    (show 0 < 2 ^ 54 by decide)).symm.trans optionsLow)
  obtain ⟨few, many, loaded, loadedMore, within, -⟩ :=
    keeps (limitedFolder "2").disk "." [] .standard (limitedFolder_proper "2") (by decide +kernel)
  obtain ⟨few', loaded', fewer⟩ := @exists_load_of_map (limitedFolder "2").disk "."
    ((limited 2).scanner.optionsWithin (1024 * 0)) .standard _ tally (1, []) (by decide +kernel)
  obtain ⟨many', loadedMore', more⟩ := @exists_load_of_map (limitedFolder "2").disk "."
    ((limited 2).scanner.optionsWithin (1024 * 2)) .standard _ tally (0, ["a.js"])
    (by decide +kernel)
  obtain rfl := Except.ok.inj (loaded.symm.trans loaded')
  obtain rfl := Except.ok.inj (loadedMore.symm.trans loadedMore')
  exact ⟨entries, _, _, few, many, there, read, decoded, given, same, options, limit, optionsLow,
    loaded, loadedMore, within, fewer, more⟩

open CommandLine in
/-- With a limit of 2^54 units nothing is handed to the loader, which loads a file of one byte with
one unit. -/
theorem limit_ofFolder_overflow :
    ∃ entries p few,
      (limitedFolder "18014398509481984").disk.text? (Paths.push "." fileName) =
        some "[scanner]\nmax_file_size_kb = 18014398509481984" ∧
      Toml.ofText? "[scanner]\nmax_file_size_kb = 18014398509481984" = some entries ∧
      decode? entries = some (limited (2 ^ 54)) ∧ limit? entries = some (2 ^ 54) ∧
      (¬∃ o, (limited (2 ^ 54)).scanner.loadOptions? = some o ∧
        o.maxFileSize = some (1024 * 2 ^ 54)) ∧
      (∀ (i : Invocation) (colors : Bool), i.task.path = "." →
        i.run colors (limitedFolder "18014398509481984").disk = .error .overflow) ∧
      RunError.overflow.exitCode = 101 ∧
      ((limited (2 ^ 54)).scanner.limitedTo 1).loadOptions? = some p ∧
      load (limitedFolder "18014398509481984").disk "." p = .ok few ∧ tally few = (0, ["a.js"]) := by
  let folder := limitedFolder "18014398509481984"
  have there : folder.disk.text? (Paths.push "." fileName) =
      some "[scanner]\nmax_file_size_kb = 18014398509481984" := by decide +kernel
  obtain ⟨entries, read, decoded, given⟩ := @exists_decoded (limited (2 ^ 54)) (2 ^ 54)
    "[scanner]\nmax_file_size_kb = 18014398509481984" (by decide +kernel) (by decide +kernel)
  have above : (limited (2 ^ 54)).scanner.loadOptions? = none := by
    rw [ScannerSettings.loadOptions?, limited,
      ScannerSettings.maxFileSize?_limitedTo_eq_none _ (le_refl _) (by decide)]
    rfl
  have same := ofFolder_of_decoded there read decoded
  obtain ⟨few, loaded, fewer⟩ := @exists_load_of_map folder.disk "."
    ((limited (2 ^ 54)).scanner.optionsWithin (1024 * 1)) .standard _ tally (0, ["a.js"])
    (by decide +kernel)
  refine ⟨entries, _, few, there, read, decoded, given, ?_, fun i colors here => ?_, rfl,
    ScannerSettings.loadOptions?_limitedTo _ (by decide), loaded, fewer⟩
  · rintro ⟨o, options, -⟩
    rw [above] at options
    cases options
  · exact run_of_overflow (by rw [here, same]) above colors .standard

end Samples

end Settings

end CodeSurvey
