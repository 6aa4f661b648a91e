import CodeSurvey.Proofs.Outline
import CodeSurvey.Proofs.Stretches
import Mathlib.Data.List.Nodup

namespace CodeSurvey.Script

open Node

/-- Whether names are all there, each of them once. -/
structure NamesOnce (names : List String) : Prop where
  nodup : names.Nodup
  named : "" ∉ names

variable {s : Source} {names : List String} {noted : FileSurvey} {n root : Node}

theorem namesOnce_nil : NamesOnce [] := ⟨List.nodup_nil, List.not_mem_nil⟩

theorem NamesOnce.push (once : NamesOnce names) (name : String) :
    NamesOnce (pushUnique names name) := by
  unfold pushUnique
  split
  next => exact once
  next new =>
    simp only [Bool.or_eq_true, decide_eq_true_eq, List.contains_iff_mem, not_or] at new
    obtain ⟨some, fresh⟩ := new
    refine ⟨once.nodup.append (List.nodup_singleton name) ?_, ?_⟩
    · exact List.disjoint_singleton.mpr fresh
    · simpa [once.named] using Ne.symm some

theorem NamesOnce.pushAll (once : NamesOnce names) (new : List String) :
    NamesOnce (new.foldl pushUnique names) := by
  induction new generalizing names with
  | nil => exact once
  | cons name new ih => exact ih (once.push name)

structure MembersOnce (c : ClassRecord) : Prop where
  methods : NamesOnce c.methods
  properties : NamesOnce c.properties

theorem MembersOnce.add {c : ClassRecord} (once : MembersOnce c) (member : Node) :
    MembersOnce (addMember s c member) := by
  unfold addMember
  split
  next =>
    split
    next => exact ⟨once.methods.push _, once.properties⟩
    next => exact once
  next =>
    split
    next =>
      split
      next => exact ⟨once.methods, once.properties.push _⟩
      next => exact once
    next => exact once

theorem membersOnce_of_classRecord? {c : ClassRecord} (h : classRecord? s n = some c) :
    MembersOnce c := by
  have kept : ∀ (members : List Node) (c : ClassRecord), MembersOnce c →
      MembersOnce (members.foldl (addMember s) c) := by
    intro members
    induction members with
    | nil => exact fun c once => once
    | cons member members ih => exact fun c once => ih _ (once.add member)
  obtain ⟨name, -, rfl⟩ := Option.map_eq_some_iff.mp h
  exact kept _ _ ⟨namesOnce_nil, namesOnce_nil⟩

/-- Whether the names in a survey are each there once. -/
structure KeepsNames (noted : FileSurvey) : Prop where
  exports : NamesOnce noted.exports
  variableNames : NamesOnce noted.variableNames
  members : ∀ c ∈ noted.classes, MembersOnce c

theorem keepsNames_empty : KeepsNames {} := ⟨namesOnce_nil, namesOnce_nil, nofun⟩

theorem KeepsNames.note (keeps : KeepsNames noted) (top : Bool) (n : Node) :
    KeepsNames (note s top n noted) := by
  obtain ⟨exports, variableNames, members⟩ := keeps
  unfold Script.note
  split_ifs
  · exact ⟨exports, variableNames, members⟩
  · exact ⟨exports.pushAll _, variableNames, members⟩
  · exact ⟨exports, variableNames, members⟩
  · refine ⟨exports, variableNames, fun c mem => ?_⟩
    rcases List.mem_append.mp mem with mem | mem
    · exact members c mem
    · exact membersOnce_of_classRecord? (Option.mem_toList.mp mem)
  · exact ⟨exports, variableNames.pushAll _, members⟩
  · exact ⟨exports, variableNames, members⟩

theorem KeepsNames.walk (keeps : KeepsNames noted) (top : Bool) (n : Node) :
    KeepsNames (walk s top n noted) :=
  walk_induction (fun top n _ keeps => keeps.note top n) top n keeps

/-- What a survey keeps to. -/
structure WellFormed (noted : FileSurvey) : Prop extends KeepsNames noted where
  complexity : 1 ≤ noted.complexity
  functions : ∀ f ∈ noted.functions, 1 ≤ f.lines ∧ 1 ≤ f.complexity

theorem wellFormed_empty : WellFormed {} := ⟨keepsNames_empty, Nat.le_refl 1, nofun⟩

theorem wellFormed_placeholder (path : String) : WellFormed (.placeholder path) where
  exports := namesOnce_nil
  variableNames := by
    refine ⟨List.nodup_singleton _, fun mem => ?_⟩
    have none := congrArg String.toList (List.mem_singleton.mp mem)
    simp [String.toList_append] at none
  members := nofun
  complexity := Nat.le_refl 1
  functions := nofun

theorem mem_functions {f : FunctionRecord} (mem : f ∈ (surveyTree s root).functions) :
    ∃ o ∈ recordedFunctions root, functionRecord? s o.node = some f := by
  have mapped : some f ∈ (surveyTree s root).functions.map some := List.mem_map_of_mem mem
  rw [surveyTree_functions] at mapped
  exact List.mem_map.mp mapped

theorem functionRecord?_counts {f : FunctionRecord} (h : functionRecord? s n = some f) :
    f.lines = n.lineCount ∧ f.complexity = complexity n := by
  obtain ⟨name, -, rfl⟩ := Option.map_eq_some_iff.mp h
  exact ⟨rfl, rfl⟩

theorem mem_recordedFunctions {o : Occurrence} (mem : o ∈ recordedFunctions root) :
    o ∈ occurrences [] root ∧ o.node ∈ root.preorder ∧
      o.node.isAny functionDeclarations = true := by
  obtain ⟨found, recorded⟩ := List.mem_filter.mp mem
  exact ⟨found, (mem_preorder_of_mem_occurrences root found).1,
    (Bool.and_eq_true_iff.mp recorded).1⟩

theorem wellFormed_surveyTree {content : String} (located : Located (.ofString content) root) :
    WellFormed (surveyTree (.ofString content) root) where
  toKeepsNames := by
    obtain ⟨exports, variableNames, members⟩ :=
      keepsNames_empty.walk (s := .ofString content) true root
    exact ⟨exports, variableNames, members⟩
  complexity := by
    have count := located.complexity_eq (self_mem_preorder root)
    rw [surveyTree, count]
    exact Nat.le_add_right 1 _
  functions f mem := by
    obtain ⟨o, found, record⟩ := mem_functions mem
    obtain ⟨-, inside, function⟩ := mem_recordedFunctions found
    obtain ⟨lines, value⟩ := functionRecord?_counts record
    rw [lines, value, located.lineCount_eq inside function, located.complexity_eq inside]
    omega

/-- How functions are noted that are declared in others. -/
structure NotesNested (s : Source) (root : Node) (noted : FileSurvey) : Prop where
  functions : noted.functions.map some =
    (recordedFunctions root).map fun o => functionRecord? s o.node
  nested : ∀ (i j : Nat) (inner outer : Occurrence) (f g : FunctionRecord),
    (recordedFunctions root)[i]? = some inner → noted.functions[i]? = some f →
      (recordedFunctions root)[j]? = some outer → noted.functions[j]? = some g →
        outer.way <+: inner.above → j < i ∧ f.lines ≤ g.lines

theorem wide_of_recorded {content : String} (located : Located (.ofString content) root)
    {o : Occurrence} (mem : o ∈ recordedFunctions root) : 0 < o.node.width := by
  obtain ⟨-, inside, function⟩ := mem_recordedFunctions mem
  exact Nat.sub_pos_of_lt ((located.each _ inside).begins function).1

theorem lines_of_getElem? {i : Nat} {o : Occurrence} {f : FunctionRecord}
    (here : (recordedFunctions root)[i]? = some o)
    (record : (surveyTree s root).functions[i]? = some f) : f.lines = o.node.lineCount := by
  have same := congrArg (·[i]?) (surveyTree_functions s root)
  simp only [List.getElem?_map, here, record, Option.map_some, Option.some.injEq] at same
  exact (functionRecord?_counts same.symm).1

theorem recordedFunctions_pairwise {content : String}
    (located : Located (.ofString content) root) :
    (recordedFunctions root).Pairwise fun a b => ¬b.way <+: a.above := by
  have all : (occurrences [] root).Pairwise fun a b => 0 < b.node.width → ¬b.way <+: a.above :=
    occurrences_pairwise root located.each
  exact List.Pairwise.imp_of_mem (fun _ mem apart => apart (wide_of_recorded located mem))
    (all.sublist List.filter_sublist)

theorem notesNested_surveyTree {content : String} (located : Located (.ofString content) root) :
    NotesNested (.ofString content) root (surveyTree (.ofString content) root) where
  functions := surveyTree_functions _ root
  nested := by
    intro i j inner outer f g atInner recordInner atOuter recordOuter within
    have memInner := List.mem_of_getElem? atInner
    have memOuter := List.mem_of_getElem? atOuter
    obtain ⟨found, insideInner, innerFunction⟩ := mem_recordedFunctions memInner
    obtain ⟨-, insideOuter, outerFunction⟩ := mem_recordedFunctions memOuter
    have above : outer.node ∈ inner.above := within.subset (by simp [Occurrence.way])
    constructor
    · obtain ⟨boundI, rfl⟩ := List.getElem?_eq_some_iff.mp atInner
      obtain ⟨boundJ, rfl⟩ := List.getElem?_eq_some_iff.mp atOuter
      have apart := List.pairwise_iff_getElem.mp (recordedFunctions_pairwise located)
      rcases Nat.lt_trichotomy j i with before | rfl | after
      · exact before
      · exact absurd within.length_le (by simp [Occurrence.way])
      · exact absurd within (apart i j boundI boundJ after)
    · have below : inner.node ∈ outer.node.preorder :=
        (mem_preorder_of_above root found outer.node above).resolve_left List.not_mem_nil
      rw [lines_of_getElem? atInner recordInner, lines_of_getElem? atOuter recordOuter]
      exact located.lineCount_le insideOuter below outerFunction innerFunction

theorem surveyFile_of_read {parser : Parser} {path content : String}
    (ok : read path (.ofString content) parser = .ok root) :
    surveyFile path content parser = surveyTree (.ofString content) root := by
  obtain ⟨dialect, known, -⟩ := read_eq_ok_iff.mp ok
  have script : isScript path = true := by rw [isScript, known, Option.isSome_some]
  have surveyed : survey path content parser = .ok (surveyTree (.ofString content) root) :=
    Digest.survey_eq_ok_iff.mpr ⟨root, ok, rfl⟩
  rw [surveyFile, if_pos script, surveyed]

/-- The survey of any file is well formed, and notes functions of a script after those around them. -/
theorem surveyFile_wellFormed {parser : Parser} {path content : String}
    (located : ∀ root, read path (.ofString content) parser = .ok root →
      Located (.ofString content) root) :
    WellFormed (surveyFile path content parser) ∧
      ∀ root, read path (.ofString content) parser = .ok root →
        NotesNested (.ofString content) root (surveyFile path content parser) := by
  constructor
  · cases h : read path (.ofString content) parser with
    | ok root => exact surveyFile_of_read h ▸ wellFormed_surveyTree (located root h)
    | error e =>
      have failed : survey path content parser = .error e := by
        simp only [survey, h, Except.map]
      rw [surveyFile, failed]
      split
      next => exact wellFormed_empty
      next => exact wellFormed_placeholder path
  · intro root ok
    exact surveyFile_of_read ok ▸ notesNested_surveyTree (located root ok)

def rowsText : String :=
  "export function f() \x7b\n  function g() \x7b\n    if (a);\n  \x7d\n\x7d\n" ++
    "class C \x7b m() \x7b\x7d m() \x7b\x7d \x7d"

def rowsTree : Node :=
  phrase .program none 0 82 [
    phrase .exportStatement none 0 56 [
      word "export" none 0,
      function (some .declaration) 7 56 [
        function none 24 54 [
          phrase .ifStatement none 43 50 [
            word "if" none 43,
            phrase .parenthesizedExpression (some .condition) 46 49 [
              word "(" none 46, phrase .identifier none 47 48 [], word ")" none 48],
            phrase .emptyStatement (some .consequence) 49 50 [word ";" none 49]]]]],
    phrase .classDeclaration none 57 82 [
      word "class" none 57,
      phrase .identifier (some .name) 63 64 [],
      phrase .classBody (some .body) 65 82 [
        word "\x7b" none 65, method 67, method 74, word "\x7d" none 81]]]
where
  part (kind : Kind) (role : Option Role) (start stop : Nat) (children : List Node) : Node :=
    .mk {
      kind
      role
      start := (Source.ofString rowsText).positionAt start
      stop := (Source.ofString rowsText).positionAt stop } children
  phrase (c : Category) := part c
  word (text : String) (role : Option Role) (start : Nat) : Node :=
    part (.text text) role start (start + text.length) []
  parameters (start : Nat) : Node :=
    phrase .formalParameters (some .parameters) start (start + 2) [
      word "(" none start, word ")" none (start + 1)]
  block (start stop : Nat) (statements : List Node) : Node :=
    phrase .statementBlock (some .body) start stop
      ([word "\x7b" none start] ++ statements ++ [word "\x7d" none (stop - 1)])
  function (role : Option Role) (start stop : Nat) (statements : List Node) : Node :=
    phrase .functionDeclaration role start stop [
      word "function" none start,
      phrase .identifier (some .name) (start + 9) (start + 10) [],
      parameters (start + 10),
      block (start + 13) stop statements]
  method (start : Nat) : Node :=
    phrase .methodDefinition (some .member) start (start + 6) [
      phrase .propertyIdentifier (some .name) start (start + 1) [],
      parameters (start + 1),
      block (start + 4) (start + 6) []]

def rowsParser : Parser := fun _ source =>
  if source.chars = rowsText.toList then some rowsTree else none

theorem rowsTree_located : Located (.ofString rowsText) rowsTree :=
  ⟨by decide, by decide⟩

theorem surveyFile_wellFormed_rows :
    (∀ root, read "a.js" (.ofString rowsText) rowsParser = .ok root →
      Located (.ofString rowsText) root) ∧
      surveyFile "a.js" rowsText rowsParser =
        { exports := ["f"], functions := [⟨"f", [], 2, 5⟩, ⟨"g", [], 2, 3⟩],
          classes := [⟨"C", ["m"], []⟩], complexity := 2 } ∧
      WellFormed (surveyFile "a.js" rowsText rowsParser) ∧
      NotesNested (.ofString rowsText) rowsTree (surveyFile "a.js" rowsText rowsParser) := by
  have located : ∀ root, read "a.js" (.ofString rowsText) rowsParser = .ok root →
      Located (.ofString rowsText) root := by
    intro root ok
    obtain ⟨dialect, known, -⟩ := Digest.parsed_of_read ok
    exact Option.some.inj known ▸ rowsTree_located
  obtain ⟨wellFormed, nested⟩ := surveyFile_wellFormed located
  exact ⟨located, by decide +kernel, wellFormed, nested rowsTree (by rfl)⟩

end CodeSurvey.Script
