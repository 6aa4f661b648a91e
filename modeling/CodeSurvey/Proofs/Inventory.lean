import CodeSurvey.Proofs.Nodes
import CodeSurvey.Script.Inventory

namespace CodeSurvey

/-- Whether a script stands above a node, and only export statements between them. -/
def Occurrence.atTop (o : Occurrence) : Bool :=
  match o.above with
  | [] => false
  | script :: between => script.isA .program && between.all (·.isA .exportStatement)

namespace Script

open Node

/-- The names that are not empty, each where it comes first. -/
def distinctNames (names : List String) : List String := (names.filter (· ≠ "")).eraseDups

variable (s : Source)

/-- What a statement imports, be it only to export it again. -/
def imported? (n : Node) : Option ImportRecord :=
  if n.isA .importStatement then import? s n
  else if n.isA .exportStatement then reexport? s n
  else none

/-- Whether a tree is that of a script, and no script stands inside it. -/
structure IsScript (root : Node) : Prop where
  program : root.isA .program = true
  only : ∀ n ∈ Node.preorderAll root.children, n.isA .program = false

theorem foldl_pushUnique (names seen : List String) :
    names.foldl pushUnique seen =
      seen ++ distinctNames (names.filter fun name => !seen.contains name) := by
  induction names generalizing seen with
  | nil => simp [distinctNames]
  | cons name names ih =>
    rw [List.foldl_cons, ih, pushUnique]
    by_cases known : seen.contains name = true
    · rw [if_pos (by rw [known, Bool.or_true]), List.filter_cons_of_neg (by simpa using known)]
    rw [List.filter_cons_of_pos (by simpa using known)]
    by_cases empty : name = ""
    · rw [if_pos (by simp [empty]), distinctNames, distinctNames,
        List.filter_cons_of_neg (by simpa using empty)]
    · have later : (names.filter fun x => !(seen ++ [name]).contains x) =
          (names.filter fun x => !seen.contains x).filter fun x => !x == name := by
        rw [List.filter_filter]
        refine List.filter_congr fun x _ => ?_
        rw [List.contains_append, Bool.not_or, Bool.and_comm]
        simp [Bool.beq_eq_decide_eq]
      rw [if_neg (by simpa [empty] using known), distinctNames, distinctNames,
        List.filter_cons_of_pos (by simpa using empty), List.eraseDups_cons, later,
        List.filter_comm, List.append_assoc, List.singleton_append]

theorem foldl_pushUnique_nil (names : List String) :
    names.foldl pushUnique [] = distinctNames names := by
  rw [foldl_pushUnique, List.nil_append]
  simp

theorem mem_distinctNames {names : List String} {name : String} :
    name ∈ distinctNames names ↔ name ∈ names ∧ name ≠ "" := by
  simp [distinctNames]

def topBelow (above : List Node) : Bool := above.foldl leadsToTop false

theorem topBelow_append (above : List Node) (n : Node) :
    topBelow (above ++ [n]) = leadsToTop (topBelow above) n := by
  simp [topBelow]

/-- A survey, with what some nodes say added to it. -/
def added (survey : FileSurvey) (os : List Occurrence) : FileSurvey :=
  { survey with
    imports := survey.imports ++ (os.map (·.node)).filterMap (imported? s)
    exports := (((os.map (·.node)).filter (·.isA .exportStatement)).flatMap
      (exportedNames s)).foldl pushUnique survey.exports
    functions := survey.functions ++
      ((os.map (·.node)).filter (·.isAny functionDeclarations)).filterMap (functionRecord? s)
    classes := survey.classes ++
      ((os.map (·.node)).filter (·.isAny classDeclarations)).filterMap (classRecord? s)
    variableNames := ((os.filter fun o => o.node.isAny variableDeclarations &&
      topBelow o.above).flatMap fun o => declaredNames s o.node).foldl pushUnique
        survey.variableNames }

theorem added_nil (survey : FileSurvey) : added s survey [] = survey := by
  simp [added]

theorem added_append (survey : FileSurvey) (os os' : List Occurrence) :
    added s survey (os ++ os') = added s (added s survey os) os' := by
  simp [added]

theorem note_eq_added (o : Occurrence) (survey : FileSurvey) :
    note s (topBelow o.above) o.node survey = added s survey [o] := by
  obtain ⟨above, n⟩ := o
  simp only [note, added, imported?, isA_eq_isAny, List.filterMap_eq_flatMap_toList, List.map_cons,
    List.map_nil, List.filter_cons, List.filter_nil]
  by_cases isImport : n.isAny [.importStatement] = true
  · simp (disch := decide) [isImport, isAny_eq_false isImport]
  by_cases isExport : n.isAny [.exportStatement] = true
  · simp (disch := decide) [isImport, isExport, isAny_eq_false isExport]
  by_cases isFunction : n.isAny functionDeclarations = true
  · simp (disch := decide) [isImport, isExport, isFunction, isAny_eq_false isFunction]
  by_cases isClass : n.isAny classDeclarations = true
  · simp (disch := decide) [isImport, isExport, isFunction, isClass, isAny_eq_false isClass]
  by_cases isVariable : n.isAny variableDeclarations = true
  · cases topBelow above <;> simp [isImport, isExport, isFunction, isClass, isVariable]
  · simp [isImport, isExport, isFunction, isClass, isVariable]

mutual

theorem walk_eq_added (above : List Node) (survey : FileSurvey) (n : Node) :
    walk s (topBelow above) n survey = added s survey (occurrences above n) := by
  obtain ⟨m, children⟩ := n
  have said := note_eq_added s ⟨above, .mk m children⟩ survey
  rw [walk, said, ← topBelow_append, walkAll_eq_added, ← added_append, occurrences]
  rfl

theorem walkAll_eq_added (above : List Node) (survey : FileSurvey) (nodes : List Node) :
    walkAll s (topBelow above) nodes survey = added s survey (occurrencesIn above nodes) := by
  cases nodes with
  | nil => rw [walkAll, occurrencesIn, added_nil]
  | cons n rest =>
    rw [walkAll, walkAll_eq_added, occurrencesIn, added_append]
    split
    next => rw [walk_eq_added]
    next => rw [added_nil]

end

mutual

/-- What is kept whatever a node says is kept by a walk. -/
theorem walk_induction {s : Source} {motive : FileSurvey → Prop}
    (kept : ∀ top n survey, motive survey → motive (note s top n survey)) (top : Bool) :
    ∀ (n : Node) {survey : FileSurvey}, motive survey → motive (walk s top n survey)
  | .mk m children, survey, holds => by
    rw [walk]
    exact walkAll_induction kept _ children (kept top _ survey holds)

theorem walkAll_induction {s : Source} {motive : FileSurvey → Prop}
    (kept : ∀ top n survey, motive survey → motive (note s top n survey)) (top : Bool) :
    ∀ (nodes : List Node) {survey : FileSurvey}, motive survey → motive (walkAll s top nodes survey)
  | [], _, holds => by rwa [walkAll]
  | n :: rest, _, holds => by
    rw [walkAll]
    refine walkAll_induction kept top rest ?_
    split
    next => exact walk_induction kept top n holds
    next => exact holds

end

theorem foldl_leadsToTop {between : List Node} (h : ∀ n ∈ between, n.isA .program = false)
    (top : Bool) :
    between.foldl leadsToTop top = (between.all (·.isA .exportStatement) && top) := by
  induction between generalizing top with
  | nil => rfl
  | cons n between ih =>
    obtain ⟨hn, h⟩ := List.forall_mem_cons.mp h
    rw [List.foldl_cons, ih h, List.all_cons, leadsToTop, hn, Bool.false_or]
    cases n.isA .exportStatement <;> simp

theorem topBelow_eq_atTop {root : Node} (script : IsScript root) {o : Occurrence}
    (h : o ∈ occurrences [] root) : topBelow o.above = o.atTop := by
  obtain ⟨m, children⟩ := root
  rcases List.mem_cons.mp h with rfl | mem
  · rfl
  obtain ⟨-, between, eq, within⟩ := mem_preorderAll_of_mem_occurrencesIn children mem
  have inside : ∀ n ∈ between, n.isA .program = false := fun n hn => script.only n (within n hn)
  rw [Occurrence.atTop, eq, topBelow]
  simp [foldl_leadsToTop inside, leadsToTop, script.program]

theorem walk_program {root : Node} (h : root.isA .program = true) (top : Bool)
    (survey : FileSurvey) : walk s top root survey = walk s (topBelow []) root survey := by
  obtain ⟨m, children⟩ := root
  rw [isA_eq_isAny] at h
  have plain : (Node.mk m children).isAny variableDeclarations = false :=
    isAny_eq_false h (by decide)
  rw [walk, walk, note, note, leadsToTop, leadsToTop, plain, isA_eq_isAny, h]
  rfl

theorem surveyTree_eq_added {root : Node} (h : root.isA .program = true) :
    surveyTree s root =
      { added s {} (occurrences [] root) with complexity := complexity root } := by
  rw [surveyTree, walk_program s h, walk_eq_added]

def part (kind : Kind) (role : Option Role) (start stop : Nat) (children : List Node) : Node :=
  .mk { kind, role, start := ⟨start, start, 0, start⟩, stop := ⟨stop, stop, 0, stop⟩ } children

def phrase (c : Category) (role : Option Role) (start stop : Nat) (children : List Node) : Node :=
  part c role start stop children

def word (text : String) (role : Option Role) (start : Nat) : Node :=
  part (.text text) role start (start + text.length) []

def sampleText : String := "export let f = a => a; function g(x) \x7b var y \x7d"

def sampleTree : Node :=
  phrase .program none 0 46 [
    phrase .exportStatement none 0 22 [
      word "export" none 0,
      phrase .lexicalDeclaration (some .declaration) 7 22 [
        word "let" (some .kind) 7,
        phrase .variableDeclarator none 11 21 [
          phrase .identifier (some .name) 11 12 [],
          word "=" none 13,
          phrase .arrowFunction (some .value) 15 21 [
            phrase .identifier (some .parameter) 15 16 [],
            word "=>" none 17,
            phrase .identifier (some .body) 20 21 []]],
        word ";" none 21]],
    phrase .functionDeclaration none 23 46 [
      word "function" none 23,
      phrase .identifier (some .name) 32 33 [],
      phrase .formalParameters (some .parameters) 33 36 [
        word "(" none 33,
        phrase .identifier none 34 35 [],
        word ")" none 35],
      phrase .statementBlock (some .body) 37 46 [
        word "\x7b" none 37,
        phrase .variableDeclaration none 39 44 [
          word "var" none 39,
          phrase .variableDeclarator none 43 44 [
            phrase .identifier (some .name) 43 44 []]],
        word "\x7d" none 45]]]

end Script

end CodeSurvey
