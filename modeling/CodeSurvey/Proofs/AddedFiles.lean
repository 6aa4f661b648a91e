import CodeSurvey.Proofs.ImportIndex
import CodeSurvey.Proofs.ImportStatements

namespace CodeSurvey

namespace SortedMap

variable {α β : Type} {m : SortedMap α} {key other : String} {a : α}

theorem exists_insertEntry (new : key ∉ m.keys) (a : α) : ∃ before after,
    m.entries = before ++ after ∧ (m.insert key a).entries = before ++ (key, a) :: after := by
  have split : ∀ entries : List (String × α), key ∉ entries.map (·.1) → ∃ before after,
      entries = before ++ after ∧ insertEntry key a entries = before ++ (key, a) :: after := by
    intro entries new
    induction entries with
    | nil => exact ⟨[], [], rfl, rfl⟩
    | cons first rest ih =>
      obtain ⟨p, b⟩ := first
      rw [List.map_cons, List.mem_cons, not_or] at new
      obtain ⟨before, after, eq, inserted⟩ := ih new.2
      rw [insertEntry]
      split
      next => exact ⟨[], (p, b) :: rest, rfl, rfl⟩
      next => exact ⟨(p, b) :: before, after, by rw [eq]; rfl, by rw [if_neg new.1, inserted]; rfl⟩
  exact split m.entries new

theorem insertEntry_between {before after : List (String × α)}
    (below : ∀ e ∈ before, e.1 < key) (above : ∀ e ∈ after, key < e.1) :
    insertEntry key a (before ++ after) = before ++ (key, a) :: after := by
  induction before with
  | nil =>
    cases after with
    | nil => rfl
    | cons first rest =>
      rw [List.nil_append, insertEntry, if_pos (above first List.mem_cons_self)]
      rfl
  | cons first before ih =>
    obtain ⟨lt, below⟩ := List.forall_mem_cons.mp below
    rw [List.cons_append, insertEntry, if_neg (String.lt_asymm lt),
      if_neg (String.ne_of_lt lt).symm, ih below]
    rfl

theorem entries_filterMap (m : SortedMap α) (f : String → α → Option β) :
    (m.filterMap f).entries = m.entries.filterMap fun (key, a) => (f key a).map (key, ·) := rfl

theorem entries_insert (m : SortedMap α) (key : String) (a : α) :
    (m.insert key a).entries = insertEntry key a m.entries := rfl

theorem filterMap_insert_none (new : key ∉ m.keys) {f : String → α → Option β} (h : f key a = none) :
    (m.insert key a).filterMap f = m.filterMap f := by
  obtain ⟨before, after, eq, inserted⟩ := exists_insertEntry new a
  apply eq_of_entries
  rw [entries_filterMap, entries_filterMap, inserted, eq]
  simp [h]

theorem filterMap_insert_some (new : key ∉ m.keys) {f : String → α → Option β} {b : β}
    (h : f key a = some b) : (m.insert key a).filterMap f = (m.filterMap f).insert key b := by
  obtain ⟨before, after, eq, inserted⟩ := exists_insertEntry new a
  have sorted := (m.insert key a).sorted
  rw [inserted, List.pairwise_append, List.pairwise_cons] at sorted
  obtain ⟨-, ⟨above, -⟩, below⟩ := sorted
  have kept : ∀ {entries : List (String × α)} {e : String × β},
      e ∈ entries.filterMap (fun (key, a) => (f key a).map (key, ·)) → ∃ e' ∈ entries, e'.1 = e.1 := by
    intro entries e mem
    obtain ⟨e', mem', eq⟩ := List.mem_filterMap.mp mem
    obtain ⟨b, -, rfl⟩ := Option.map_eq_some_iff.mp eq
    exact ⟨e', mem', rfl⟩
  have image : (f key a).map (key, ·) = some (key, b) := by rw [h, Option.map_some]
  apply eq_of_entries
  rw [entries_filterMap, inserted, entries_insert, entries_filterMap, eq, List.filterMap_append,
    List.filterMap_append, insertEntry_between, List.filterMap_cons_some]
  · exact image
  · intro e mem
    obtain ⟨e', mem', same⟩ := kept mem
    exact same ▸ below e' mem' _ List.mem_cons_self
  · intro e mem
    obtain ⟨e', mem', same⟩ := kept mem
    exact same ▸ above e' mem'

theorem get?_insert_self : (m.insert key a).get? key = some a :=
  get?_eq_some_iff.mpr (mem_insertEntry_self key a m.entries)

theorem get?_insert_of_ne (ne : other ≠ key) : (m.insert key a).get? other = m.get? other := by
  ext b
  rw [get?_eq_some_iff, get?_eq_some_iff]
  constructor
  · intro mem
    rcases mem_insertEntry mem with eq | mem
    · exact absurd (Prod.mk.inj eq).1 ne
    · exact mem
  · exact fun mem => mem_insertEntry_of_ne mem ne

end SortedMap

namespace Project

open Script

variable {files : SortedMap String} {surveys : SortedMap FileSurvey} {path content : String}
  {parser : Parser}

def complexitySum (surveys : SortedMap FileSurvey) : Nat :=
  sumOf (·.complexity) (surveys.entries.map (·.2))

/-- What is said of a project after a script has come to it that cannot be read, compared with what
was said before: it counts as a file of one unit of complexity, and all else is as it was. -/
structure AddsUnread (path : String) (before after : ProjectSurvey) : Prop where
  files : after.files = before.files.insert path {}
  own : after.files.get? path = some {}
  others : ∀ other, other ≠ path → after.files.get? other = before.files.get? other
  size : after.files.size = before.files.size + 1
  count : after.totals.files = (before.totals.files + 1) % Totals.bound
  oneMore : before.files.size + 1 < Totals.bound →
    after.totals.files = before.totals.files + 1
  average : after.totals.averageComplexity =
    average ((complexitySum before.files + 1) % Totals.bound)
      ((before.files.size + 1) % Totals.bound)
  averageBefore : before.totals.averageComplexity =
    Project.average (complexitySum before.files % Totals.bound) (before.files.size % Totals.bound)
  functions : after.totals.functions = before.totals.functions
  classes : after.totals.classes = before.totals.classes
  lines : after.totals.lines = before.totals.lines
  dependencies : after.totals.dependencies = before.totals.dependencies

theorem sumOf_insert_empty (new : path ∉ surveys.keys) (f : FileSurvey → Nat) :
    sumOf f ((surveys.insert path {}).entries.map (·.2)) =
      sumOf f (surveys.entries.map (·.2)) + f {} := by
  obtain ⟨before, after, eq, inserted⟩ := SortedMap.exists_insertEntry new ({} : FileSurvey)
  rw [inserted, eq, List.map_append, List.map_append, sumOf_append, sumOf_append, List.map_cons, sumOf,
    Nat.add_assoc, Nat.add_comm (f {})]

theorem importNotes_insert_empty (new : path ∉ surveys.keys) :
    importNotes (surveys.insert path {}) = importNotes surveys := by
  obtain ⟨before, after, eq, inserted⟩ := SortedMap.exists_insertEntry new ({} : FileSurvey)
  rw [importNotes, importNotes, inserted, eq, List.flatMap_append, List.flatMap_append,
    List.flatMap_cons]
  rfl

theorem addsUnread (new : path ∉ surveys.keys) :
    AddsUnread path ⟨surveys, totals surveys⟩
      ⟨surveys.insert path {}, totals (surveys.insert path {})⟩ := by
  have size : (surveys.insert path {}).size = surveys.size + 1 := by
    obtain ⟨before, after, eq, inserted⟩ := SortedMap.exists_insertEntry new ({} : FileSurvey)
    rw [SortedMap.size, SortedMap.size, inserted, eq, List.length_append, List.length_append,
      List.length_cons]
    omega
  have unchanged : ∀ f : FileSurvey → Nat, f {} = 0 →
      sumOf f ((surveys.insert path {}).entries.map (·.2)) = sumOf f (surveys.entries.map (·.2)) := by
    intro f none
    rw [sumOf_insert_empty new, none, Nat.add_zero]
  refine ⟨rfl, SortedMap.get?_insert_self, fun other ne => SortedMap.get?_insert_of_ne ne, size, ?_,
    fun few => ?_, ?_, rfl, ?_, ?_, ?_, ?_⟩
  · simp only [totals, size, Nat.mod_add_mod]
  · simp only [totals, size]
    rw [Nat.mod_eq_of_lt few, Nat.mod_eq_of_lt (Nat.lt_of_succ_lt few)]
  · simp only [totals, size, sumOf_insert_empty new, complexitySum]
  · simp only [totals, unchanged (·.functions.length) rfl]
  · simp only [totals, unchanged (·.classes.length) rfl]
  · simp only [totals, unchanged (·.functionLines) rfl]
  · rw [dependencies_eq_ofEntries, dependencies_eq_ofEntries, importNotes_insert_empty new]

theorem surveyFile_of_unread {failure : Failure} (script : isScript path = true)
    (h : read path (.ofString content) parser = .error failure) :
    surveyFile path content parser = {} := by
  have failed : Script.survey path content parser = .error failure := by
    rw [Script.survey, h]
    rfl
  rw [surveyFile, if_pos script, failed]

def surveyOf? (parser : Parser) (path content : String) : Option FileSurvey :=
  if isScript path then some (surveyFile path content parser) else none

theorem survey_eq (files : SortedMap String) (parser : Parser) : survey files parser =
    ⟨files.filterMap (surveyOf? parser), totals (files.filterMap (surveyOf? parser))⟩ := rfl

/-- A file that is no script has no part in a survey, and one that cannot be read disturbs nothing. -/
theorem survey_insert (new : path ∉ files.keys) (content : String) (parser : Parser) :
    (isScript path = false →
        survey (files.insert path content) parser = survey files parser) ∧
      ∀ failure, isScript path = true →
        read path (.ofString content) parser = .error failure →
          AddsUnread path (survey files parser) (survey (files.insert path content) parser) := by
  constructor
  · intro other
    have none : surveyOf? parser path content = none := by
      rw [surveyOf?, other, if_neg Bool.false_ne_true]
    rw [survey_eq, survey_eq, SortedMap.filterMap_insert_none new none]
  · intro failure script unread
    have empty : surveyOf? parser path content = some {} := by
      rw [surveyOf?, if_pos script, surveyFile_of_unread script unread]
    have fresh : path ∉ (files.filterMap (surveyOf? parser)).keys := by
      intro mem
      obtain ⟨s, found⟩ := SortedMap.mem_keys_iff_get?.mp mem
      rw [SortedMap.get?_filterMap] at found
      obtain ⟨content', here, -⟩ := Option.bind_eq_some_iff.mp found
      exact new (SortedMap.mem_keys_iff_get?.mpr ⟨content', here⟩)
    rw [survey_eq, survey_eq, SortedMap.filterMap_insert_some new empty]
    exact addsUnread fresh

def knownFiles : SortedMap String := .ofList [("a.ts", requireText), ("c.md", "text")]

theorem survey_insert_unparsed :
    "b.ts" ∉ knownFiles.keys ∧ isScript "b.ts" = true ∧
      read "b.ts" (.ofString "(") requireParser =
        .error (.unparsed "b.ts" "parser returned no tree") ∧
      AddsUnread "b.ts" (survey knownFiles requireParser)
        (survey (knownFiles.insert "b.ts" "(") requireParser) ∧
      "b.md" ∉ knownFiles.keys ∧ isScript "b.md" = false ∧
      survey (knownFiles.insert "b.md" "(") requireParser = survey knownFiles requireParser ∧
      (survey (knownFiles.insert "b.ts" "(") requireParser).totals.dependencies.entries =
        [("b", ["a.ts"])] := by
  have new : "b.ts" ∉ knownFiles.keys := by decide +kernel
  have script : isScript "b.ts" = true := by decide +kernel
  have unread : read "b.ts" (.ofString "(") requireParser =
      .error (.unparsed "b.ts" "parser returned no tree") := by rfl
  have new' : "b.md" ∉ knownFiles.keys := by decide +kernel
  have other : isScript "b.md" = false := by decide +kernel
  exact ⟨new, script, unread, (survey_insert new "(" requireParser).2 _ script unread, new', other,
    (survey_insert new' "(" requireParser).1 other, by decide +kernel⟩

end Project

end CodeSurvey
