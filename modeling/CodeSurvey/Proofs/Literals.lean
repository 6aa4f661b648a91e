import CodeSurvey.Proofs.Inventory
import CodeSurvey.Proofs.ImportIndex
import Mathlib.Data.List.DropRight
import Mathlib.Data.List.TakeWhile

namespace CodeSurvey

namespace Text

variable {p : Char → Bool} {c : Char} {cs : List Char}

theorem trimWhere_eq_rdropWhile (p : Char → Bool) (cs : List Char) :
    trimWhere p cs = (cs.dropWhile p).rdropWhile p := rfl

theorem trimWhere_sublist (p : Char → Bool) (cs : List Char) : (trimWhere p cs).Sublist cs :=
  (List.rdropWhile_prefix p _).sublist.trans (List.dropWhile_sublist p)

theorem trimWhere_enclosed (marked : p c = true) :
    trimWhere p (c :: cs ++ [c]) = trimWhere p cs := by
  rw [trimWhere_eq_rdropWhile, trimWhere_eq_rdropWhile, List.cons_append,
    List.dropWhile_cons_of_pos marked, List.dropWhile_append]
  split
  next none => rw [List.isEmpty_iff.mp none, List.dropWhile_cons_of_pos marked, List.dropWhile_nil]
  next => exact List.rdropWhile_concat_pos p _ c marked

theorem trimWhere_eq_self_iff :
    trimWhere p cs = cs ↔ (∀ c ∈ cs.head?, p c = false) ∧ ∀ c ∈ cs.getLast?, p c = false := by
  have first : cs.dropWhile p = cs ↔ ∀ c ∈ cs.head?, p c = false := by
    rw [List.dropWhile_eq_self_iff]
    cases cs <;> simp
  have last : cs.rdropWhile p = cs ↔ ∀ c ∈ cs.getLast?, p c = false := by
    rw [List.rdropWhile_eq_self_iff]
    by_cases none : cs = []
    · simp [none]
    · simp [none, List.getLast?_eq_some_getLast none]
  rw [trimWhere_eq_rdropWhile, ← first, ← last]
  constructor
  · intro whole
    have inside := (List.rdropWhile_prefix p (cs.dropWhile p)).sublist
    rw [whole] at inside
    have all : cs.dropWhile p = cs := (List.dropWhile_sublist p).antisymm inside
    rw [all] at whole
    exact ⟨all, whole⟩
  · rintro ⟨head, tail⟩
    rw [head, tail]

end Text

namespace Script

open Text

/-- The marks that a literal may stand between. -/
inductive Delimiter where
  | double
  | single
deriving DecidableEq, Repr

namespace Delimiter

def mark : Delimiter → Char
  | double => '"'
  | single => '\''

def taken : Delimiter → List Char
  | double => ['"', '\'', '\x60']
  | single => ['\'', '\x60']

end Delimiter

/-- A text between two marks of one kind. -/
structure Literal where
  delimiter : Delimiter
  body : String
deriving DecidableEq, Repr

namespace Literal

def text (l : Literal) : String :=
  String.ofList (l.delimiter.mark :: l.body.toList ++ [l.delimiter.mark])

/-- Takes marks off on both sides, kind by kind. -/
def takeOff (marks cs : List Char) : List Char :=
  marks.foldl (fun cs mark => trimWhere (· = mark) cs) cs

def bare (l : Literal) : String := String.ofList (takeOff l.delimiter.taken l.body.toList)

/-- Whether no mark that is taken off stands at an end of the body. -/
def PlainEnds (l : Literal) : Prop :=
  ∀ mark ∈ l.delimiter.taken, l.body.toList.head? ≠ some mark ∧ l.body.toList.getLast? ≠ some mark

instance (l : Literal) : Decidable l.PlainEnds :=
  List.decidableBAll _ l.delimiter.taken

variable {l : Literal} {marks cs : List Char}

theorem takeOff_sublist (marks cs : List Char) : (takeOff marks cs).Sublist cs := by
  induction marks generalizing cs with
  | nil => exact .refl cs
  | cons mark marks ih => exact (ih _).trans (trimWhere_sublist _ cs)

theorem takeOff_eq_self_iff :
    takeOff marks cs = cs ↔ ∀ mark ∈ marks, cs.head? ≠ some mark ∧ cs.getLast? ≠ some mark := by
  induction marks with
  | nil => simp [takeOff]
  | cons mark marks ih =>
    have here : trimWhere (· = mark) cs = cs ↔ cs.head? ≠ some mark ∧ cs.getLast? ≠ some mark := by
      rw [trimWhere_eq_self_iff]
      cases cs.head? <;> cases cs.getLast? <;> simp
    rw [List.forall_mem_cons, ← here, ← ih]
    constructor
    · intro whole
      have inside : (takeOff (mark :: marks) cs).Sublist (trimWhere (· = mark) cs) :=
        takeOff_sublist marks _
      rw [whole] at inside
      have kept : trimWhere (· = mark) cs = cs := (trimWhere_sublist _ cs).antisymm inside
      refine ⟨kept, ?_⟩
      rwa [takeOff, List.foldl_cons, kept] at whole
    · rintro ⟨kept, whole⟩
      rwa [takeOff, List.foldl_cons, kept]

theorem unquote_text (l : Literal) : unquote l.text = l.bare := by
  obtain ⟨delimiter, body⟩ := l
  rw [unquote, text, String.toList_ofList, bare]
  refine congrArg String.ofList ?_
  cases delimiter with
  | double =>
    rw [List.foldl_cons, Delimiter.mark, trimWhere_enclosed (by decide)]
    simp only [takeOff, Delimiter.taken, List.foldl_cons]
  | single =>
    have kept : trimWhere (· = '"') ('\'' :: body.toList ++ ['\'']) =
        '\'' :: body.toList ++ ['\''] := by
      rw [trimWhere_eq_self_iff, List.getLast?_concat]
      simp
    rw [List.foldl_cons, List.foldl_cons, Delimiter.mark, kept, trimWhere_enclosed (by decide)]
    simp only [takeOff, Delimiter.taken, List.foldl_cons]

theorem bare_eq_body_iff : l.bare = l.body ↔ l.PlainEnds := by
  rw [bare, ← String.toList_inj, String.toList_ofList, takeOff_eq_self_iff]
  rfl

end Literal

open Node

variable {s : Source} {root n : Node} {l : Literal}

/-- Whether a literal names something that a script exports in an export clause. -/
def NamesExport (s : Source) (root : Node) (l : Literal) : Prop :=
  ∃ n ∈ reached root, n.isA .exportStatement = true ∧
    n.children.any (·.isText "default") = false ∧ n.child? .declaration = none ∧
    ∃ clause ∈ n.namedChildren, clause.isA .exportClause = true ∧
    ∃ specifier ∈ clause.namedChildren, specifier.isA .exportSpecifier = true ∧
    ∃ name, (specifier.child? .otherName <|> specifier.child? .name) = some name ∧
      name.text s = l.text

theorem source_imported? {literal : Node}
    (statement : n.isAny [.importStatement, .exportStatement] = true)
    (names : n.child? .source = some literal) (text : literal.text s = l.text) :
    (imported? s n).map (·.source) = some l.bare := by
  unfold imported?
  split_ifs with isImport isExport
  · simp [import?, names, text, Literal.unquote_text]
  · simp [reexport?, names, text, Literal.unquote_text]
  · simp [isAny, isImport, isExport] at statement

theorem bare_mem_exportedNames (names : NamesExport s root l) :
    ∃ n ∈ reached root, n.isA .exportStatement = true ∧ l.bare ∈ exportedNames s n := by
  obtain ⟨n, mem, isExport, plain, undeclared, clause, within, isClause, specifier, inside,
    isSpecifier, name, found, text⟩ := names
  refine ⟨n, mem, isExport, ?_⟩
  rw [exportedNames, if_neg (by simpa using plain), undeclared]
  refine List.mem_flatMap.mpr ⟨clause, List.mem_filter.mpr ⟨within, isClause⟩,
    List.mem_filterMap.mpr ⟨specifier, inside, ?_⟩⟩
  rw [exportedName?, if_pos isSpecifier, found, Option.map_some, text, Literal.unquote_text]

theorem exports_eq (program : root.isA .program = true) :
    (surveyTree s root).exports =
      distinctNames (((reached root).filter (·.isA .exportStatement)).flatMap (exportedNames s)) := by
  rw [surveyTree_eq_added s program]
  exact foldl_pushUnique_nil _

/-- What is recorded for the literals of a script. -/
structure RecordsLiterals (s : Source) (root : Node) : Prop where
  imports : (surveyTree s root).imports = (reached root).filterMap (imported? s)
  modules : ∀ (n literal : Node) (l : Literal),
    n.isAny [.importStatement, .exportStatement] = true → n.child? .source = some literal →
      literal.text s = l.text → (imported? s n).map (·.source) = some l.bare
  exports : ∀ l, NamesExport s root l → l.bare ≠ "" → l.bare ∈ (surveyTree s root).exports
  bodies : ∀ l : Literal, l.bare = l.body ↔ l.PlainEnds
  dependencies : ∀ files (literals : List Literal),
    Project.importSequence files = literals.map (·.bare) →
      (Project.totals files).dependencies.modules = (literals.map (·.bare)).eraseDups ∧
      ((∀ l ∈ literals, l.PlainEnds) →
        (Project.totals files).dependencies.modules = (literals.map (·.body)).eraseDups)

theorem literals_recorded (s : Source) {root : Node} (program : root.isA .program = true) :
    RecordsLiterals s root where
  imports := by
    rw [surveyTree_eq_added s program]
    rfl
  modules _ _ _ statement names text := source_imported? statement names text
  exports l names some := by
    obtain ⟨n, mem, isExport, exported⟩ := bare_mem_exportedNames names
    rw [exports_eq program, mem_distinctNames]
    exact ⟨List.mem_flatMap.mpr ⟨n, List.mem_filter.mpr ⟨mem, isExport⟩, exported⟩, some⟩
  bodies _ := Literal.bare_eq_body_iff
  dependencies files literals sequence := by
    have modules : (Project.totals files).dependencies.modules =
        (literals.map (·.bare)).eraseDups := by
      rw [Project.modules_eq_eraseDups, sequence]
    refine ⟨modules, fun plain => ?_⟩
    rw [modules]
    exact congrArg _ (List.map_congr_left fun l mem => Literal.bare_eq_body_iff.mpr (plain l mem))

def quotedText : String :=
  "import a from \"'x'\"; import b from 'x'; export \x7b b as \"'y\" \x7d;"

def quotedTree : Node :=
  let literal (mark : String) (role : Role) (start stop : Nat) :=
    phrase .string (some role) start stop [
      word mark none start,
      phrase .stringFragment none (start + 1) (stop - 1) [],
      word mark none (stop - 1)]
  let statement (mark : String) (start stop : Nat) :=
    phrase .importStatement none start stop [
      word "import" none start,
      phrase .importClause none (start + 7) (start + 8) [
        phrase .identifier none (start + 7) (start + 8) []],
      word "from" none (start + 9),
      literal mark .source (start + 14) (stop - 1),
      word ";" none (stop - 1)]
  phrase .program none 0 61 [
    statement "\"" 0 20,
    statement "'" 21 39,
    phrase .exportStatement none 40 61 [
      word "export" none 40,
      phrase .exportClause none 47 60 [
        word "\x7b" none 47,
        phrase .exportSpecifier none 49 58 [
          phrase .identifier (some .name) 49 50 [],
          word "as" none 51,
          literal "\"" .otherName 54 58],
        word "\x7d" none 59],
      word ";" none 60]]

theorem literals_recorded_quoted :
    quotedTree.isA .program = true ∧ RecordsLiterals (.ofString quotedText) quotedTree ∧
      Literal.PlainEnds ⟨.single, "x"⟩ ∧ ¬Literal.PlainEnds ⟨.double, "'x'"⟩ ∧
      Literal.PlainEnds ⟨.single, "\"x\""⟩ := by
  have program : quotedTree.isA .program = true := by decide
  exact ⟨program, literals_recorded _ program, by decide, by decide, by decide⟩

def quotedParser : Parser := fun _ source =>
  if source.chars = quotedText.toList then some quotedTree else none

/-- Two modules with different names are one dependency, and an export loses part of its name. -/
theorem literals_merged :
    survey "a.ts" quotedText quotedParser =
        .ok { imports := [⟨"a", "x"⟩, ⟨"b", "x"⟩], exports := ["y"] } ∧
      (Project.survey (.ofList [("a.ts", quotedText)]) quotedParser).totals.dependencies.entries =
        [("x", ["a.ts"])] ∧
      Literal.text ⟨.double, "'x'"⟩ = "\"'x'\"" ∧ unquote "\"'x'\"" ≠ "'x'" := by
  refine ⟨by rfl, by decide +kernel, by decide, by decide⟩

end Script

end CodeSurvey
