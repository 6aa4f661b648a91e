import CodeSurvey.Loading.Load
import CodeSurvey.Paths.Classification
import CodeSurvey.Proofs.Segments
import CodeSurvey.Script.Reading
import Mathlib.Data.List.TakeDrop

namespace CodeSurvey.Text

/-- Characters before the capital letters, and those between these and the letters with marks. -/
def isPlain (c : Char) : Bool := c.toNat < 0x41 || 0x5B ≤ c.toNat && c.toNat < 0xB0

theorem lowerChar_plain {c : Char} (h : isPlain c = true) : lowerChar c = [c] := by
  have range : c.toNat < 0x41 ∨ 0x5B ≤ c.toNat ∧ c.toNat < 0xB0 := by simpa [isPlain] using h
  have apart : ∀ run ∈ upperRuns, 0x41 ≤ run.1 ∧ (run.2.1 < 0x5B ∨ 0xB0 ≤ run.1) := by
    decide +kernel
  have dotted : c ≠ '\u0130' := by
    rintro rfl
    exact absurd h (by decide)
  rw [lowerChar, if_neg dotted, List.find?_eq_none.mpr]
  intro run mem
  obtain ⟨low, high⟩ := apart run mem
  obtain ⟨first, last, step, lower⟩ := run
  dsimp only at low high ⊢
  simp only [Bool.and_eq_true, decide_eq_true_eq]
  omega

theorem lower_plain {s : String} (h : s.toList.all isPlain = true) : lower s = s := by
  have kept (before : List Char) (cs : List Char) (plain : ∀ c ∈ cs, isPlain c = true) :
      lowerAfter before cs = cs := by
    induction cs generalizing before with
    | nil => rfl
    | cons c rest ih =>
      obtain ⟨first, plain⟩ := List.forall_mem_cons.mp plain
      have sigma : c ≠ 'Σ' := by
        rintro rfl
        exact absurd first (by decide)
      unfold lowerAfter
      rw [lowerChar_plain first]
      simp [sigma, ih _ plain]
  rw [lower, kept _ _ (List.all_eq_true.mp h), String.ofList_toList]

end CodeSurvey.Text

namespace CodeSurvey.Paths

variable {path name : String} {folders : List String} {stem extension : List Char}

theorem KeyRule.mem_all (rule : KeyRule) : rule ∈ all := by cases rule <;> decide

theorem splitAtLastDot_append (h : '.' ∉ extension) :
    splitAtLastDot (stem ++ '.' :: extension) = some (stem, extension) := by
  have plain : ∀ c ∈ extension.reverse, decide (c ≠ '.') = true := by
    intro c mem
    have ne : c ≠ '.' := fun eq => h (eq ▸ List.mem_reverse.mp mem)
    exact decide_eq_true ne
  rw [splitAtLastDot, List.span_eq_takeWhile_dropWhile, List.reverse_append, List.reverse_cons,
    List.append_assoc, List.takeWhile_append_of_pos plain, List.dropWhile_append_of_pos plain]
  simp

theorem fileName?_of_last (eq : (segments path).reverse = name :: folders)
    (step : isStep name = true) (up : name ≠ "..") : fileName? path = some name := by
  have last : ((segments path).filter isStep).getLast? = some name := by
    rw [← List.head?_reverse, ← List.filter_reverse, eq, List.filter_cons_of_pos step, List.head?_cons]
  rw [fileName?, last]
  split
  next h => exact absurd (Option.some.inj h) up
  next => rfl

theorem suffix_joined (ne : folders ≠ []) :
    '/' :: name.toList <:+ (joined (folders ++ [name])).toList := by
  induction folders with
  | nil => exact absurd rfl ne
  | cons folder folders ih =>
    rw [List.cons_append, joined_cons (List.append_ne_nil_of_right_ne_nil _ (List.cons_ne_nil _ _)),
      String.toList_append, String.toList_append]
    rcases folders with _ | ⟨next, folders⟩
    · exact ⟨folder.toList, by simp [joined]⟩
    · exact (ih (List.cons_ne_nil _ _)).trans (List.suffix_append _ _)

theorem name_suffix (eq : (segments path).reverse = name :: folders) :
    path = name ∨ '/' :: name.toList <:+ path.toList := by
  have whole : segments path = folders.reverse ++ [name] := by
    rw [← List.reverse_reverse (segments path), eq, List.reverse_cons]
  rw [← joined_segments path, whole]
  rcases folders with _ | ⟨folder, folders⟩
  · exact .inl rfl
  · exact .inr (suffix_joined (by simp))

theorem suffix_name {ending : List Char} (plain : '/' ∉ ending)
    (eq : (segments path).reverse = name :: folders) (h : ending <:+ path.toList) :
    ending <:+ name.toList := by
  rcases name_suffix eq with rfl | last
  · exact h
  rcases List.suffix_or_suffix_of_suffix h last with short | long
  · rcases List.suffix_cons_iff.mp short with rfl | short
    · exact absurd List.mem_cons_self plain
    · exact short
  · exact absurd (long.subset List.mem_cons_self) plain

end CodeSurvey.Paths

namespace CodeSurvey.Loading

open Paths

namespace LoadOptions

variable {o : LoadOptions} {path name : String} {stem extension : List Char}

theorem isWanted_of_extension {extension : String} (h : extensionOf? name = some extension) :
    o.isWanted name = o.wantedExtensions.contains (Text.lower extension) := by
  simp [isWanted, h]

theorem isWanted_ofList (h : '.' ∉ extension) :
    o.isWanted (String.ofList (stem ++ '.' :: extension)) =
      o.wantedExtensions.contains (Text.lower (String.ofList extension)) := by
  cases stem with
  | nil =>
    have plain : extensionOf? (String.ofList ('.' :: extension)) = none := by
      rw [extensionOf?, String.toList_ofList]
      have split : splitAtLastDot ([] ++ '.' :: extension) = some ([], extension) :=
        splitAtLastDot_append h
      rw [List.nil_append] at split
      rw [split]
    rw [List.nil_append, isWanted, plain, String.toList_ofList]
    rfl
  | cons c stem =>
    refine isWanted_of_extension ?_
    rw [extensionOf?, String.toList_ofList, splitAtLastDot_append h]

theorem isWanted_default (default : o.extensions = none) : o.isWanted = ({} : LoadOptions).isWanted := by
  funext name
  rw [isWanted, isWanted, wantedExtensions, wantedExtensions, default]

end LoadOptions

variable {rule : KeyRule} {folder : Option String} {file name path : String}

/-- The names that rules for key files list, whatever the folder. -/
def keyNames : List String :=
  "README.md" :: KeyRule.all.flatMap fun rule => rule.fileNames ++ rule.fileNamesIn.map (·.2)

/-- What the names of key files end in, after their last dot. -/
def keyExtensions : List String := ["json", "js", "jsx", "ts", "tsx", "mjs", "cjs", "htm", "html",
  "toml", "rs", "py", "txt", "go", "xml", "java", "gradle", "kts", "php", "yml", "yaml", "md"]

/-- Names of key files that are not loaded if no extensions are asked for. -/
def missedNames : List String := ["go.mod", "config.ru"]

/-- Names of key files without any of these extensions. -/
def bareNames : List String :=
  missedNames ++ ["Gemfile", "Rakefile", "Dockerfile", "Makefile"]

theorem keyExtensions_cases : ∀ extension ∈ keyExtensions,
    extension.toList.all (fun c => Text.isPlain c && c ≠ '.') = true ∧ extension.toList ≠ [] ∧
      defaultExtensions.contains extension = true := by
  decide

theorem lower_keyExtensions {extension : String} (known : extension ∈ keyExtensions) :
    defaultExtensions.contains (Text.lower extension) = true := by
  obtain ⟨plain, -, default⟩ := keyExtensions_cases extension known
  have lower : extension.toList.all Text.isPlain = true :=
    List.all_eq_true.mpr fun c mem => (Bool.and_eq_true_iff.mp (List.all_eq_true.mp plain c mem)).1
  rwa [Text.lower_plain lower]

/-- Whether a name ends in one of the extensions. -/
def EndsKnown (name : String) : Prop :=
  ∃ extension ∈ keyExtensions, '.' :: extension.toList <:+ name.toList

instance (name : String) : Decidable (EndsKnown name) := inferInstanceAs (Decidable (∃ _ ∈ _, _))

theorem endsKnown_combine {stems endings : List String} (ends : ∀ ending ∈ endings, EndsKnown ending) :
    ∀ name ∈ KeyRule.combine stems endings, EndsKnown name := by
  intro name mem
  obtain ⟨stem, -, mem⟩ := List.mem_flatMap.mp mem
  obtain ⟨ending, last, rfl⟩ := List.mem_map.mp mem
  obtain ⟨extension, known, suffix⟩ := ends ending last
  refine ⟨extension, known, suffix.trans ?_⟩
  rw [String.toList_append]
  exact List.suffix_append _ _

theorem names_cases (rule : KeyRule) : (∀ name ∈ rule.fileNames, name ∈ bareNames ∨ EndsKnown name) ∧
    ∀ e ∈ rule.fileNamesIn, EndsKnown e.2 := by
  cases rule with
  | scriptEntry | frameworkConfig =>
    exact ⟨fun name mem => .inr (endsKnown_combine (by decide) name mem), nofun⟩
  | frameworkConvention =>
    refine ⟨nofun, ?_⟩
    rw [KeyRule.fileNamesIn, List.forall_mem_append, List.forall_mem_map, List.forall_mem_map]
    exact ⟨endsKnown_combine (by decide), endsKnown_combine (by decide)⟩
  | _ => exact ⟨by decide, by decide⟩

theorem isWanted_missedNames :
    ∀ name ∈ missedNames, ({} : LoadOptions).isWanted name = false := by
  decide

theorem accepts_cases (h : rule.accepts folder file = true) :
    file ∈ keyNames ∨ KeyRule.isApplication file = true := by
  rw [KeyRule.accepts, Bool.or_eq_true_iff, Bool.or_eq_true_iff, Bool.or_eq_true_iff] at h
  rcases h with ((named | inFolder) | application) | readme
  · refine .inl (List.mem_cons_of_mem _ (List.mem_flatMap.mpr ⟨rule, rule.mem_all, ?_⟩))
    exact List.mem_append_left _ (List.contains_iff_mem.mp named)
  · obtain ⟨⟨dir, name⟩, mem, same⟩ := List.any_eq_true.mp inFolder
    obtain rfl : name = file := by simpa using (Bool.and_eq_true_iff.mp same).2
    refine .inl (List.mem_cons_of_mem _ (List.mem_flatMap.mpr ⟨rule, rule.mem_all, ?_⟩))
    exact List.mem_append_right _ (List.mem_map.mpr ⟨_, mem, rfl⟩)
  · exact .inr (Bool.and_eq_true_iff.mp application).2
  · obtain rfl : file = "README.md" := by simpa using (Bool.and_eq_true_iff.mp readme).2
    exact .inl List.mem_cons_self

/-- The last segment of a path that a key file or a configuration has. -/
structure IsKept (name : String) : Prop where
  step : isStep name = true
  up : name ≠ ".."
  wanted : name ∈ missedNames ∨ ({} : LoadOptions).isWanted name = true

theorem isKept_of_endsKnown (h : EndsKnown name) : IsKept name := by
  obtain ⟨extension, known, stem, eq⟩ := h
  obtain ⟨plain, ne, -⟩ := keyExtensions_cases extension known
  have noDot : '.' ∉ extension.toList := fun mem => by simpa using List.all_eq_true.mp plain '.' mem
  have apart : ∀ dots : String, (∀ c ∈ dots.toList, c = '.') → name ≠ dots := by
    rintro dots all rfl
    obtain ⟨c, rest, eqExtension⟩ := List.exists_cons_of_ne_nil ne
    have mem : c ∈ extension.toList := eqExtension ▸ List.mem_cons_self
    have dot : c = '.' := all c (eq ▸ List.mem_append_right _ (List.mem_cons_of_mem _ mem))
    exact noDot (dot ▸ mem)
  have name_eq : name = String.ofList (stem ++ '.' :: extension.toList) := by
    rw [eq, String.ofList_toList]
  refine ⟨?_, apart ".." (by simp), .inr ?_⟩
  · simp [isStep, apart "" (by simp), apart "." (by simp)]
  · rw [name_eq, LoadOptions.isWanted_ofList noDot, String.ofList_toList]
    exact lower_keyExtensions known

theorem isKept_bareNames : ∀ name ∈ bareNames, IsKept name := by
  have cases : ∀ name ∈ bareNames, isStep name = true ∧ name ≠ ".." ∧
      (name ∈ missedNames ∨ ({} : LoadOptions).isWanted name = true) := by
    decide
  intro name mem
  obtain ⟨step, up, wanted⟩ := cases name mem
  exact ⟨step, up, wanted⟩

theorem isKept_of_mem (mem : name ∈ keyNames) : IsKept name := by
  rcases List.mem_cons.mp mem with rfl | mem
  · exact isKept_of_endsKnown (by decide)
  · obtain ⟨rule, -, mem⟩ := List.mem_flatMap.mp mem
    rcases List.mem_append.mp mem with named | inFolder
    · exact ((names_cases rule).1 name named).elim (isKept_bareNames name) isKept_of_endsKnown
    · obtain ⟨e, listed, rfl⟩ := List.mem_map.mp inFolder
      exact isKept_of_endsKnown ((names_cases rule).2 e listed)

theorem isKept_of_classify (special : classify path ≠ .other) :
    ∃ name folders, (segments path).reverse = name :: folders ∧ IsKept name := by
  obtain ⟨name, folders, eq⟩ := List.exists_cons_of_ne_nil
    (mt List.reverse_eq_nil_iff.mp (segments_ne_nil path))
  refine ⟨name, folders, eq, ?_⟩
  rw [classify] at special
  split at special
  next found =>
    obtain ⟨rule, h⟩ := Option.isSome_iff_exists.mp found
    have accepted := List.find?_some h
    rw [KeyRule.matchesPath, eq] at accepted
    rcases accepts_cases accepted with mem | application
    · exact isKept_of_mem mem
    · have ending := (Bool.and_eq_true_iff.mp application).1
      refine isKept_of_endsKnown ⟨"java", by decide, ?_⟩
      exact (show ".java".toList <:+ "Application.java".toList by decide).trans
        (List.isSuffixOf_iff_suffix.mp ending)
  next =>
    split at special
    next config =>
      refine isKept_of_endsKnown ⟨"json", by decide, ?_⟩
      exact suffix_name (by decide) eq (List.isSuffixOf_iff_suffix.mp config)
    next => exact absurd rfl special

/-- What the names of scripts end in, in lower case. -/
def scriptExtensions : List String := ["js", "jsx", "mjs", "cjs", "ts", "mts", "cts", "tsx"]

theorem lower_of_dialect {extension : String} {dialect : Dialect}
    (h : Dialect.ofExtension? extension = some dialect) : Text.lower extension ∈ scriptExtensions := by
  unfold Dialect.ofExtension? at h
  split at h
  case h_9 => cases h
  all_goals next eq => rw [eq]; decide

theorem scriptExtensions_default : ∀ extension ∈ scriptExtensions, extension ∈ defaultExtensions := by
  decide

theorem isWanted_of_isScript (h : Script.isScript path = true) :
    ∃ name, fileName? path = some name ∧ ({} : LoadOptions).isWanted name = true := by
  obtain ⟨dialect, found⟩ := Option.isSome_iff_exists.mp h
  obtain ⟨extension, eq, known⟩ := Option.bind_eq_some_iff.mp found
  obtain ⟨name, file, eq⟩ := Option.bind_eq_some_iff.mp eq
  refine ⟨name, file, ?_⟩
  rw [LoadOptions.isWanted_of_extension eq]
  exact List.contains_iff_mem.mpr (scriptExtensions_default _ (lower_of_dialect known))

/-- Of the key files, the configuration and the scripts, all are loaded by default but two kinds. -/
theorem isWanted_special_iff {o : LoadOptions} (default : o.extensions = none)
    (special : classify path ≠ .other ∨ Script.isScript path = true) :
    ∃ name, fileName? path = some name ∧
      (o.isWanted name = true ↔ name ≠ "go.mod" ∧ name ≠ "config.ru") := by
  have kept : ∃ name, fileName? path = some name ∧
      (name ∈ missedNames ∨ ({} : LoadOptions).isWanted name = true) := by
    rcases special with special | script
    · obtain ⟨name, folders, eq, kept⟩ := isKept_of_classify special
      exact ⟨name, fileName?_of_last eq kept.step kept.up, kept.wanted⟩
    · obtain ⟨name, file, wanted⟩ := isWanted_of_isScript script
      exact ⟨name, file, .inr wanted⟩
  obtain ⟨name, file, cases⟩ := kept
  have missed : name ∈ missedNames ↔ name = "go.mod" ∨ name = "config.ru" := by simp [missedNames]
  refine ⟨name, file, ?_⟩
  rw [LoadOptions.isWanted_default default, ← not_or, ← missed]
  constructor
  · intro wanted mem
    rw [isWanted_missedNames name mem] at wanted
    cases wanted
  · exact fun other => cases.resolve_left other

theorem isWanted_special_application :
    classify "orders/OrderApplication.java" ≠ .other ∧
      ∃ name, fileName? "orders/OrderApplication.java" = some name ∧
        (({} : LoadOptions).isWanted name = true ↔ name ≠ "go.mod" ∧ name ≠ "config.ru") := by
  have special : classify "orders/OrderApplication.java" ≠ .other := by decide
  exact ⟨special, isWanted_special_iff rfl (.inl special)⟩

/-- A key file that is not loaded by default. -/
theorem isWanted_manifest :
    ¬∀ path, classify path ≠ .other ∨ Script.isScript path = true →
      ({} : LoadOptions).isWanted ((fileName? path).getD "") = true := by
  intro all
  have special : classify "go.mod" ≠ .other := by decide
  have file : fileName? "go.mod" = some "go.mod" := by decide
  have wanted := all "go.mod" (.inl special)
  rw [file, Option.getD_some, isWanted_missedNames "go.mod" (by decide)] at wanted
  cases wanted

end CodeSurvey.Loading
