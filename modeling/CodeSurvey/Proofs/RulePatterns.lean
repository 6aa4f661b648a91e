import CodeSurvey.Paths.Classification
import CodeSurvey.Proofs.Segments
import Mathlib.Computability.Language

namespace CodeSurvey.Paths

open Text
open scoped Computability

variable {path file : String} {names endings : List String} {folders : List String}
  {w : List Char}

section Names

/-- The language of some names. -/
def oneOf (names : List String) : Language Char := {w | String.ofList w ∈ names}

theorem mem_oneOf : w ∈ oneOf names ↔ String.ofList w ∈ names := Iff.rfl

theorem oneOf_perm (h : names.Perm endings) : oneOf names = oneOf endings :=
  Language.ext fun _ => h.mem_iff

theorem oneOf_add (names endings : List String) :
    oneOf names + oneOf endings = oneOf (names ++ endings) := by
  apply Language.ext
  intro w
  rw [Language.mem_add, mem_oneOf, mem_oneOf, mem_oneOf, List.mem_append]

theorem oneOf_mul (names endings : List String) :
    oneOf names * oneOf endings = oneOf (KeyRule.combine names endings) := by
  apply Language.ext
  intro w
  simp only [Language.mem_mul, mem_oneOf, KeyRule.combine, List.mem_flatMap, List.mem_map]
  constructor
  · rintro ⟨front, known, back, ending, rfl⟩
    exact ⟨_, known, _, ending, String.ofList_append.symm⟩
  · rintro ⟨name, known, ending, mem, eq⟩
    refine ⟨name.toList, by rwa [String.ofList_toList], ending.toList, by rwa [String.ofList_toList], ?_⟩
    rw [← String.toList_append, eq, String.toList_ofList]

end Names

section Places

/-- What may stand before a pattern: nothing, or anything that ends in a slash. -/
def anywhere : Language Char := 1 + ⊤ * oneOf ["/"]

theorem mem_anywhere_mul (pattern : Language Char) (path : String) :
    path.toList ∈ anywhere * pattern ↔
      ∃ body, body.toList ∈ pattern ∧ segments body <:+ segments path := by
  rw [Language.mem_mul]
  constructor
  · rintro ⟨before, free, body, mem, eq⟩
    refine ⟨String.ofList body, by rwa [String.toList_ofList], ?_⟩
    rcases free with rfl | ⟨front, -, mark, slash, rfl⟩
    · rw [List.nil_append] at eq
      rw [eq, String.ofList_toList]
    · have single : String.ofList mark = "/" := List.mem_singleton.mp (mem_oneOf.mp slash)
      have split : path.toList = front ++ '/' :: body := by
        rw [← eq, ← String.toList_ofList (l := mark), single]
        simp
      rw [segments_of_slash split]
      exact List.suffix_append _ _
  · rintro ⟨body, mem, front, eq⟩
    have whole : path = joined (front ++ segments body) := by rw [eq, joined_segments]
    by_cases alone : front = []
    · refine ⟨[], .inl rfl, body.toList, mem, ?_⟩
      rw [whole, alone, List.nil_append, List.nil_append, joined_segments]
    · have free : (joined front).toList ++ ['/'] ∈ anywhere :=
        .inr (Language.append_mem_mul trivial (mem_oneOf.mpr List.mem_cons_self))
      refine ⟨_, free, body.toList, mem, ?_⟩
      rw [whole, joined_append alone (segments_ne_nil body), joined_segments, String.toList_append,
        String.toList_append]
      rfl

end Places

section Words

def isWordChar (c : Char) : Bool := c.isAlphanum || c = '_'

def wordChar : Language Char := {w | ∃ c, isWordChar c = true ∧ w = [c]}

theorem mem_kstar_wordChar : w ∈ wordChar∗ ↔ ∀ c ∈ w, isWordChar c = true := by
  rw [Language.mem_kstar]
  constructor
  · rintro ⟨parts, rfl, single⟩ c mem
    obtain ⟨part, mem, inside⟩ := List.mem_flatten.mp mem
    obtain ⟨d, word, rfl⟩ := single part mem
    exact List.mem_singleton.mp inside ▸ word
  · intro word
    refine ⟨w.map fun c => [c], ?_, ?_⟩
    · exact (List.flatMap_singleton' w).symm
    · intro part mem
      obtain ⟨c, inside, rfl⟩ := List.mem_map.mp mem
      exact ⟨c, word c inside, rfl⟩

theorem isApplication_iff : KeyRule.isApplication file = true ↔
    file.toList ∈ wordChar∗ * oneOf ["Application.java"] := by
  have ending : ∀ w, w ∈ oneOf ["Application.java"] ↔ w = "Application.java".toList := by
    intro w
    rw [mem_oneOf, List.mem_singleton, ← String.toList_inj, String.toList_ofList]
  simp only [Language.mem_mul, mem_kstar_wordChar, ending, exists_eq_left]
  have unfolded : KeyRule.isApplication file = ("Application.java".toList.isSuffixOf file.toList &&
    (file.toList.take (file.toList.length - "Application.java".toList.length)).all isWordChar) := rfl
  rw [unfolded, Bool.and_eq_true_iff, List.isSuffixOf_iff_suffix, List.all_eq_true]
  constructor
  · rintro ⟨⟨stem, eq⟩, words⟩
    refine ⟨stem, ?_, eq⟩
    rw [← eq] at words
    simpa using words
  · rintro ⟨stem, words, eq⟩
    refine ⟨⟨stem, eq⟩, ?_⟩
    rw [← eq]
    simpa using words

end Words

namespace KeyRule

def pattern : KeyRule → Language Char
  | packageManifest => oneOf ["package", "composer"] * oneOf [".json"]
  | scriptEntry => oneOf ["index", "main", "app", "App", "server"] * oneOf ["."] *
    oneOf ["js", "jsx", "ts", "tsx", "mjs", "cjs"]
  | frameworkConfig => oneOf ["vite", "webpack", "rollup", "next", "nuxt", "svelte", "astro",
      "tailwind", "postcss", "babel", "jest", "vitest"] * oneOf [".config."] *
    oneOf ["js", "ts", "mjs", "cjs"]
  | frameworkConvention => (oneOf ["pages/_"] * oneOf ["app", "document"] +
      oneOf ["app/"] * oneOf ["layout", "page"]) * oneOf ["."] * oneOf ["js", "jsx", "ts", "tsx"]
  | htmlEntry => oneOf ["index.htm"] * oneOf ["", "l"]
  | rust => oneOf ["Cargo.toml", "src/main.rs", "src/lib.rs"]
  | python => oneOf ["setup.py", "pyproject.toml", "requirements.txt", "manage.py", "__main__.py",
      "main.py", "app.py"]
  | go => oneOf ["go.mod", "main.go"]
  | jvm => oneOf ["pom.xml"] + oneOf ["build", "settings"] * oneOf [".gradle"] * oneOf ["", ".kts"] +
      wordChar∗ * oneOf ["Application.java"] + oneOf ["Main.java"]
  | rubyPhp => oneOf ["Gemfile", "Rakefile", "config.ru", "index.php"]
  | build => oneOf ["Dockerfile", "Makefile", "CMakeLists.txt"] +
      oneOf ["docker-compose.y"] * oneOf ["", "a"] * oneOf ["ml"]
  | readme => oneOf ["README.md"]

/-- The paths that a rule describes: anywhere, except for the one that has to stand alone. -/
def language (rule : KeyRule) : Language Char :=
  if rule = readme then rule.pattern else anywhere * rule.pattern

/-- The names that a rule lists, with their folders. -/
def listed (rule : KeyRule) : List String :=
  rule.fileNames ++ rule.fileNamesIn.map fun (dir, name) => dir ++ "/" ++ name

theorem pattern_eq_listed (rule : KeyRule) (other : rule ≠ jvm) (alone : rule ≠ readme) :
    rule.pattern = oneOf rule.listed := by
  cases rule with
  | jvm => exact absurd rfl other
  | readme => exact absurd rfl alone
  | _ =>
    simp only [pattern, oneOf_mul, oneOf_add]
    exact congrArg oneOf (by decide +kernel)

theorem pattern_jvm : jvm.pattern = oneOf jvm.listed + wordChar∗ * oneOf ["Application.java"] := by
  have names : oneOf ["pom.xml"] + oneOf ["build", "settings"] * oneOf [".gradle"] *
      oneOf ["", ".kts"] + oneOf ["Main.java"] = oneOf jvm.listed := by
    simp only [oneOf_mul, oneOf_add]
    exact oneOf_perm (by decide +kernel)
  rw [← names, pattern]
  ac_rfl

theorem plain_combine {stems : List String} (plain : ∀ name ∈ stems, '/' ∉ name.toList)
    (plainEnds : ∀ name ∈ endings, '/' ∉ name.toList) :
    ∀ name ∈ combine stems endings, '/' ∉ name.toList := by
  intro name mem
  obtain ⟨stem, known, mem⟩ := List.mem_flatMap.mp mem
  obtain ⟨ending, ends, rfl⟩ := List.mem_map.mp mem
  rw [String.toList_append, List.mem_append, not_or]
  exact ⟨plain stem known, plainEnds ending ends⟩

theorem plain_names (rule : KeyRule) : (∀ name ∈ rule.fileNames, '/' ∉ name.toList) ∧
    ∀ e ∈ rule.fileNamesIn, '/' ∉ e.1.toList ∧ '/' ∉ e.2.toList := by
  cases rule with
  | scriptEntry | frameworkConfig => exact ⟨plain_combine (by decide) (by decide), nofun⟩
  | frameworkConvention =>
    have pages : '/' ∉ "pages".toList := by decide
    have app : '/' ∉ "app".toList := by decide
    refine ⟨nofun, ?_⟩
    rw [fileNamesIn, List.forall_mem_append, List.forall_mem_map, List.forall_mem_map]
    exact ⟨fun name mem => ⟨pages, plain_combine (by decide) (by decide) name mem⟩,
      fun name mem => ⟨app, plain_combine (by decide) (by decide) name mem⟩⟩
  | jvm =>
    refine ⟨?_, nofun⟩
    rw [fileNames, List.forall_mem_cons, List.forall_mem_cons]
    exact ⟨by decide, by decide, plain_combine (by decide) (by decide)⟩
  | _ => exact ⟨by decide, by decide⟩

theorem accepts_iff {rule : KeyRule} {folder : Option String} : rule.accepts folder file = true ↔
    file ∈ rule.fileNames ∨ (∃ dir, folder = some dir ∧ (dir, file) ∈ rule.fileNamesIn) ∨
      (rule = jvm ∧ isApplication file = true) ∨
      (rule = readme ∧ folder = none ∧ file = "README.md") := by
  have inFolder : (rule.fileNamesIn.any fun (dir, name) => folder = some dir && name = file) = true ↔
      ∃ dir, folder = some dir ∧ (dir, file) ∈ rule.fileNamesIn := by
    rw [List.any_eq_true]
    constructor
    · rintro ⟨⟨dir, name⟩, mem, same⟩
      obtain ⟨rfl, rfl⟩ : folder = some dir ∧ name = file := by simpa using same
      exact ⟨dir, rfl, mem⟩
    · rintro ⟨dir, rfl, mem⟩
      exact ⟨(dir, file), mem, by simp⟩
  rw [accepts, Bool.or_eq_true_iff, Bool.or_eq_true_iff, Bool.or_eq_true_iff, inFolder,
    List.contains_iff_mem, or_assoc, or_assoc]
  simp only [Bool.and_eq_true_iff, decide_eq_true_eq, and_assoc]

theorem suffix_segments_iff (eq : (segments path).reverse = file :: folders) (last : List String) :
    last <:+ segments path ↔ last.reverse <+: file :: folders := by
  rw [← eq, List.reverse_prefix]

theorem listed_iff (rule : KeyRule) (eq : (segments path).reverse = file :: folders) :
    (∃ body, body.toList ∈ oneOf rule.listed ∧ segments body <:+ segments path) ↔
      file ∈ rule.fileNames ∨ ∃ dir, folders.head? = some dir ∧ (dir, file) ∈ rule.fileNamesIn := by
  obtain ⟨plain, plainIn⟩ := plain_names rule
  have alone : ∀ name ∈ rule.fileNames, segments name <:+ segments path ↔ name = file := by
    intro name mem
    rw [segments_of_notMem (plain name mem), suffix_segments_iff eq]
    simp
  have within : ∀ e ∈ rule.fileNamesIn,
      segments (e.1 ++ "/" ++ e.2) <:+ segments path ↔ e.2 = file ∧ folders.head? = some e.1 := by
    intro e mem
    obtain ⟨plainDir, plainName⟩ := plainIn e mem
    have parts : segments (e.1 ++ "/" ++ e.2) = [e.1, e.2] := by
      rw [segments_append, segments_of_notMem plainDir, segments_of_notMem plainName]
      rfl
    rw [parts, suffix_segments_iff eq]
    cases folders <;> simp [eq_comm]
  simp only [mem_oneOf, String.ofList_toList, listed, List.mem_append, List.mem_map]
  constructor
  · rintro ⟨body, mem | ⟨e, mem, rfl⟩, last⟩
    · exact .inl ((alone body mem).mp last ▸ mem)
    · obtain ⟨rfl, folder⟩ := (within e mem).mp last
      exact .inr ⟨e.1, folder, mem⟩
  · rintro (mem | ⟨dir, folder, mem⟩)
    · exact ⟨file, .inl mem, (alone file mem).mpr rfl⟩
    · exact ⟨_, .inr ⟨(dir, file), mem, rfl⟩, (within (dir, file) mem).mpr ⟨rfl, folder⟩⟩

theorem application_iff (eq : (segments path).reverse = file :: folders) :
    (∃ body, body.toList ∈ wordChar∗ * oneOf ["Application.java"] ∧
      segments body <:+ segments path) ↔ isApplication file = true := by
  have alone : ∀ body : String, body.toList ∈ wordChar∗ * oneOf ["Application.java"] →
      '/' ∉ body.toList := by
    intro body mem
    obtain ⟨stem, words, ending, java, eq⟩ := Language.mem_mul.mp mem
    have name : ending = "Application.java".toList := by
      rw [← List.mem_singleton.mp (mem_oneOf.mp java), String.toList_ofList]
    rw [← eq, name, List.mem_append, not_or]
    refine ⟨fun slash => ?_, by decide⟩
    exact absurd (mem_kstar_wordChar.mp words '/' slash) (by decide)
  constructor
  · rintro ⟨body, mem, last⟩
    rw [segments_of_notMem (alone body mem), suffix_segments_iff eq] at last
    have same : body = file := by simpa using last
    rw [isApplication_iff, ← same]
    exact mem
  · intro application
    have mem := isApplication_iff.mp application
    refine ⟨file, mem, ?_⟩
    rw [segments_of_notMem (alone file mem), suffix_segments_iff eq]
    simp

theorem matchesPath_iff (rule : KeyRule) (path : String) :
    rule.matchesPath path = true ↔ path.toList ∈ rule.language := by
  obtain ⟨file, folders, eq⟩ := List.exists_cons_of_ne_nil
    (mt List.reverse_eq_nil_iff.mp (segments_ne_nil path))
  rw [matchesPath, eq, language]
  dsimp only
  rw [accepts_iff]
  by_cases alone : rule = readme
  · subst alone
    have single : path = "README.md" ↔ segments path = ["README.md"] := by
      constructor
      · rintro rfl
        exact segments_of_notMem (by decide)
      · intro parts
        rw [← joined_segments path, parts, joined_singleton]
    rw [if_pos rfl, pattern, mem_oneOf, String.ofList_toList, List.mem_singleton, single,
      ← List.reverse_inj, eq]
    cases folders <;> simp [fileNames, fileNamesIn]
  rw [if_neg alone, mem_anywhere_mul]
  by_cases other : rule = jvm
  · subst other
    simp only [pattern_jvm, Language.mem_add, or_and_right, exists_or, listed_iff jvm eq,
      application_iff eq]
    simp [or_assoc]
  · rw [pattern_eq_listed rule other alone, listed_iff rule eq]
    simp [alone, other]

end KeyRule

end CodeSurvey.Paths
