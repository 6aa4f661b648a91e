import CodeSurvey.Digest.Lines
import CodeSurvey.Proofs.Segments
import Mathlib.Data.List.Forall2

namespace CodeSurvey.Text

def dropReturn (line : List Char) : List Char :=
  if line.getLast? = some '\r' then line.dropLast else line

/-- The lines of a text. A line feed ends each but the last, with a carriage return before it or not; and
nothing at the end is no line. -/
def endedLines (cs : List Char) : List (List Char) :=
  (lines cs).dropLast.map dropReturn ++ (lines cs).getLast?.toList.filter (!·.isEmpty)

theorem trim_dropReturn (line : List Char) : trim (dropReturn line) = trim line := by
  unfold dropReturn
  split
  next ends =>
    obtain ⟨before, rfl⟩ := List.getLast?_eq_some_iff.mp ends
    rw [List.dropLast_concat]
    have blank : isBlank '\r' = true := by decide
    unfold trim trimWhere dropWhileEnd
    rw [List.dropWhile_append]
    split
    next all =>
      rw [List.isEmpty_iff.mp all, List.dropWhile_cons_of_pos blank]
      rfl
    next => rw [List.reverse_append, List.reverse_singleton, List.singleton_append,
      List.dropWhile_cons_of_pos blank]
  next => rfl

theorem filterMap_endedLines {β : Type} {f : List Char → Option β} (empty : f [] = none)
    (cs : List Char) :
    (endedLines cs).filterMap (fun line => f (trim line)) =
      (lines cs).filterMap fun line => f (trim line) := by
  obtain ⟨before, last, eq⟩ := (List.eq_nil_or_concat' (splitWhere (· = '\n') cs)).resolve_left
    (splitWhere_ne_nil _ cs)
  have last_eq : [last].filterMap (fun line => f (trim line)) =
      ([last].filter (!·.isEmpty)).filterMap fun line => f (trim line) := by
    cases last with
    | nil => simpa [trim, trimWhere, dropWhileEnd] using empty
    | cons c rest => rfl
  unfold endedLines lines
  rw [eq, List.dropLast_concat, List.getLast?_concat, List.filterMap_append, List.filterMap_append,
    List.filterMap_map, Option.toList_some, last_eq]
  simp only [Function.comp_def, trim_dropReturn]

end CodeSurvey.Text

namespace CodeSurvey.Digest

open Text

variable {word text line : List Char} {after : Bool} {kind : LineKind}

/-- Whether no word character stands in front of a text. -/
def IsApart (text : List Char) : Prop := ∀ c ∈ text.head?, isWordChar c = false

/-- Whether a line begins with a word. -/
def StartsWithWord (word line : List Char) : Prop := ∃ rest, line = word ++ rest ∧ IsApart rest

/-- Whether a word stands somewhere in a line. -/
def ContainsWord (word line : List Char) : Prop :=
  ∃ before rest, line = before ++ word ++ rest ∧ (∀ c ∈ before.getLast?, isWordChar c = false) ∧
    IsApart rest

theorem goesOn_eq_false_iff : goesOn text = false ↔ IsApart text := by
  cases text <;> simp [goesOn, IsApart]

theorem beginsWith_iff : beginsWith word text = true ↔ StartsWithWord word text := by
  rw [beginsWith, Bool.and_eq_true, List.isPrefixOf_iff_prefix, Bool.not_eq_true',
    goesOn_eq_false_iff]
  constructor
  · rintro ⟨⟨rest, rfl⟩, apart⟩
    rw [List.drop_left] at apart
    exact ⟨rest, rfl, apart⟩
  · rintro ⟨rest, rfl, apart⟩
    rw [List.drop_left]
    exact ⟨List.prefix_append _ _, apart⟩

theorem hasWord_iff : hasWord word after text = true ↔
    ∃ before rest, text = before ++ word ++ rest ∧
      (before.getLast?.map isWordChar).getD after = false ∧ IsApart rest := by
  induction text generalizing after with
  | nil =>
    rw [hasWord, Bool.and_eq_true, Bool.not_eq_true', beginsWith_iff]
    constructor
    · rintro ⟨start, rest, eq, apart⟩
      exact ⟨[], rest, eq, start, apart⟩
    · rintro ⟨before, rest, eq, start, apart⟩
      obtain ⟨rfl, -⟩ := List.append_eq_nil_iff.mp (List.append_eq_nil_iff.mp eq.symm).1
      exact ⟨start, rest, eq, apart⟩
  | cons c text ih =>
    rw [hasWord, Bool.or_eq_true, Bool.and_eq_true, Bool.not_eq_true', beginsWith_iff, ih]
    have last (before : List Char) : ((c :: before).getLast?.map isWordChar).getD after =
        (before.getLast?.map isWordChar).getD (isWordChar c) := by
      rw [List.getLast?_cons]
      cases before.getLast? <;> rfl
    constructor
    · rintro (⟨start, rest, eq, apart⟩ | ⟨before, rest, rfl, start, apart⟩)
      · exact ⟨[], rest, eq, start, apart⟩
      · exact ⟨c :: before, rest, rfl, (last before).trans start, apart⟩
    · rintro ⟨before, rest, eq, start, apart⟩
      cases before with
      | nil => exact .inl ⟨start, rest, eq, apart⟩
      | cons d before =>
        obtain ⟨rfl, rfl⟩ := List.cons.inj eq
        exact .inr ⟨before, rest, rfl, (last before).symm.trans start, apart⟩

theorem hasWord_start_iff : hasWord word false text = true ↔ ContainsWord word text := by
  have start (before : List Char) : (before.getLast?.map isWordChar).getD false = false ↔
      ∀ c ∈ before.getLast?, isWordChar c = false := by
    cases before.getLast? <;> simp
  simp only [hasWord_iff, ContainsWord, start]

theorem hasPart_iff {part : List Char} : hasPart part text = true ↔ part <:+: text := by
  induction text with
  | nil => rw [hasPart, List.isEmpty_iff, List.infix_nil]
  | cons c rest ih =>
    rw [hasPart, Bool.or_eq_true, List.isPrefixOf_iff_prefix, ih, List.infix_cons_iff]

/-- What is said of a line by its kind. -/
def LineKind.Describes (line : List Char) : LineKind → Prop
  | importLine => StartsWithWord "import".toList line
  | exportLine => StartsWithWord "export".toList line
  | functionLine => ContainsWord "function".toList line
  | arrowLine => "=>".toList <:+: line
  | classLine => ContainsWord "class".toList line

theorem applies_iff : kind.applies line = true ↔ kind.Describes line := by
  cases kind with
  | importLine | exportLine => exact beginsWith_iff
  | functionLine | classLine => exact hasWord_start_iff
  | arrowLine => exact hasPart_iff

def IsPicked (line : List Char) : Prop :=
  StartsWithWord "import".toList line ∨ StartsWithWord "export".toList line ∨
    ContainsWord "function".toList line ∨ ContainsWord "class".toList line ∨ "=>".toList <:+: line

theorem isPicked_iff : IsPicked line ↔ ∃ kind : LineKind, kind.Describes line := by
  constructor
  · rintro (h | h | h | h | h)
    exacts [⟨.importLine, h⟩, ⟨.exportLine, h⟩, ⟨.functionLine, h⟩, ⟨.classLine, h⟩, ⟨.arrowLine, h⟩]
  · rintro ⟨kind, h⟩
    cases kind with
    | importLine => exact .inl h
    | exportLine => exact .inr (.inl h)
    | functionLine => exact .inr (.inr (.inl h))
    | classLine => exact .inr (.inr (.inr (.inl h)))
    | arrowLine => exact .inr (.inr (.inr (.inr h)))

/-- Kinds of lines, those that come first first. -/
def LineKind.order : List LineKind := [importLine, exportLine, functionLine, arrowLine, classLine]

theorem LineKind.mem_order (kind : LineKind) : kind ∈ order := by
  cases kind <;> decide

/-- Whether a kind describes a line, and none before it does. -/
def LineKind.IsFirst (kind : LineKind) (line : List Char) : Prop :=
  kind.Describes line ∧ ∃ before later, order = before ++ kind :: later ∧
    ∀ other ∈ before, ¬other.Describes line

theorem lineKind?_eq_some_iff : lineKind? line = some kind ↔ kind.IsFirst line := by
  rw [lineKind?, List.find?_eq_some_iff_append]
  simp only [Bool.not_eq_true', ← Bool.not_eq_true, applies_iff]
  rfl

theorem exists_isFirst (h : IsPicked line) : ∃ kind : LineKind, kind.IsFirst line := by
  obtain ⟨kind, describes⟩ := isPicked_iff.mp h
  have some : (lineKind? line).isSome = true :=
    List.find?_isSome.mpr ⟨kind, kind.mem_order, applies_iff.mpr describes⟩
  obtain ⟨first, found⟩ := Option.isSome_iff_exists.mp some
  exact ⟨first, lineKind?_eq_some_iff.mp found⟩

/-- Whether one text is the longest beginning of another within a number of characters. -/
structure IsCut (limit : Nat) (line cut : List Char) : Prop where
  begins : cut <+: line
  short : cut.length ≤ limit
  longest : ∀ other, other <+: line → other.length ≤ limit → other.length ≤ cut.length

theorem isCut_take (limit : Nat) (line : List Char) : IsCut limit line (line.take limit) where
  begins := List.take_prefix _ _
  short := List.length_take_le _ _
  longest other begins short := by
    rw [List.length_take]
    exact Nat.le_min.mpr ⟨short, begins.length_le⟩

/-- Whether a text is the digest of a trimmed line. -/
def IsDigest (line : List Char) (text : String) : Prop :=
  ∃ kind : LineKind, ∃ cut, kind.IsFirst line ∧ IsCut 120 line cut ∧
    text = "// " ++ kind.name ++ ": " ++ String.ofList cut

theorem digestLine?_of_picked (ne : line ≠ []) (h : IsPicked line) :
    ∃ text, digestLine? line = some text ∧ IsDigest line text := by
  obtain ⟨kind, first⟩ := exists_isFirst h
  refine ⟨_, ?_, kind, _, first, isCut_take 120 line, rfl⟩
  rw [digestLine?, if_neg (by simpa using ne), lineKind?_eq_some_iff.mpr first]
  rfl

theorem digestLine?_of_not_picked (h : ¬(line ≠ [] ∧ IsPicked line)) : digestLine? line = none := by
  rw [digestLine?]
  split
  next => rfl
  next ne =>
    rw [Option.map_eq_none_iff, Option.eq_none_iff_forall_ne_some]
    intro kind found
    have describes := (lineKind?_eq_some_iff.mp found).1
    exact h ⟨by simpa using ne, isPicked_iff.mpr ⟨kind, describes⟩⟩

open Classical in
theorem forall₂_isDigest (trimmed : List (List Char)) :
    List.Forall₂ IsDigest (trimmed.filter fun line => line ≠ [] ∧ IsPicked line)
      (trimmed.filterMap digestLine?) := by
  induction trimmed with
  | nil => exact .nil
  | cons line rest ih =>
    by_cases picked : line ≠ [] ∧ IsPicked line
    · obtain ⟨text, digest, isDigest⟩ := digestLine?_of_picked picked.1 picked.2
      rw [List.filter_cons_of_pos (by simpa using picked), List.filterMap_cons_some digest]
      exact .cons isDigest ih
    · rw [List.filter_cons_of_neg (by simpa using picked),
        List.filterMap_cons_none (digestLine?_of_not_picked picked)]
      exact ih

open Classical in
/-- A text is digested line by line. The lines that are picked have their digests, in their order. -/
theorem digestLines_picks (a b content : String) :
    digestLines (a ++ "\n" ++ b) = digestLines a ++ digestLines b ∧
      List.Forall₂ IsDigest
        (((endedLines content.toList).map trim).filter fun line => line ≠ [] ∧ IsPicked line)
        (digestLines content) := by
  constructor
  · have parted : (a ++ "\n" ++ b).toList = a.toList ++ '\n' :: b.toList := by simp
    unfold digestLines
    rw [parted, lines_append_break, List.filterMap_append]
  · have digests := forall₂_isDigest ((endedLines content.toList).map trim)
    rwa [List.filterMap_map, Function.comp_def, filterMap_endedLines rfl] at digests

example : digestLines "subclass class A\r\n  => export" =
    ["// class: subclass class A", "// arrow: => export"] := by
  decide +kernel

end CodeSurvey.Digest
