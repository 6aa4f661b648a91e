import CodeSurvey.Proofs.Outline

namespace CodeSurvey

namespace Node

/-- Whether a node is an import statement that binds a name to what it requires. -/
def isRequire (n : Node) : Bool :=
  n.isA .importStatement && n.children.any (·.isA .importRequireClause)

/-- Whether a node is an export statement that takes from another module what it exports. -/
def isReexport (n : Node) : Bool := n.isA .exportStatement && n.children.any (·.isText "from")

variable {α : Type} {f : Node → Option α}

mutual

/-- A walk through named children misses nothing, as long as nodes without a name have no children. -/
theorem filterMap_occurrences (named : ∀ n, n.isNamed = false → f n = none) (above : List Node) :
    ∀ n : Node, (∀ x ∈ n.preorder, x.isNamed = false → x.children = []) →
      ((occurrences above n).map (·.node)).filterMap f = n.preorder.filterMap f
  | mk m children, leaves => by
    have below := filterMap_occurrencesIn named (above ++ [mk m children]) children
      fun x mem => leaves x (List.mem_cons_of_mem _ mem)
    rw [occurrences, preorder, List.map_cons, List.filterMap_cons, List.filterMap_cons, below]

theorem filterMap_occurrencesIn (named : ∀ n, n.isNamed = false → f n = none) (above : List Node) :
    ∀ nodes : List Node, (∀ x ∈ preorderAll nodes, x.isNamed = false → x.children = []) →
      ((occurrencesIn above nodes).map (·.node)).filterMap f = (preorderAll nodes).filterMap f
  | [], _ => rfl
  | n :: rest, leaves => by
    have first := filterMap_occurrences named above n fun x mem =>
      leaves x (List.mem_append_left _ mem)
    have others := filterMap_occurrencesIn named above rest fun x mem =>
      leaves x (List.mem_append_right _ mem)
    rw [occurrencesIn, preorderAll, List.map_append, List.filterMap_append, List.filterMap_append,
      others]
    split
    next => rw [first]
    next unnamed =>
      have none : n.isNamed = false := Bool.eq_false_iff.mpr unnamed
      have leaf := leaves n (List.mem_append_left _ (self_mem_preorder n)) none
      obtain ⟨m, children⟩ := n
      obtain rfl : children = [] := leaf
      simp [preorder, preorderAll, named _ none]

end

end Node

namespace Script

open Node

/-- What is relied on in the tree of a script: words are leaves, an import statement names its module
itself unless it requires it, and an export statement does if it has the word for it. -/
structure HasModules (root : Node) : Prop where
  program : root.isA .program = true
  leaves : ∀ n ∈ root.preorder, n.isNamed = false → n.children = []
  imports : ∀ n ∈ root.preorder, n.isA .importStatement = true →
    (n.child? .source).isSome = !n.children.any (·.isA .importRequireClause)
  reexports : ∀ n ∈ root.preorder, n.isA .exportStatement = true →
    (n.child? .source).isSome = n.children.any (·.isText "from")

variable (s : Source) {root n : Node}

theorem imported?_eq_none (h : n.isNamed = false) : imported? s n = none := by
  have other (c : Category) : n.isA c ≠ true := fun isA => by
    rw [isA_eq_isAny] at isA
    exact Bool.false_ne_true (h.symm.trans (isNamed_of_isAny isA))
  rw [imported?, if_neg (other _), if_neg (other _)]

theorem imports_eq (modules : HasModules root) :
    (surveyTree s root).imports = root.preorder.filterMap (imported? s) := by
  rw [surveyTree_eq_added s modules.program]
  exact filterMap_occurrences (fun n => imported?_eq_none s) [] root modules.leaves

/-- Whether a statement brings an entry. -/
def bringsImport (n : Node) : Bool := n.isA .importStatement && !n.isRequire || n.isReexport

theorem isReexport_eq_false (h : n.isA .importStatement = true) : n.isReexport = false := by
  have other : n.isA .exportStatement = false := by
    rw [isA_eq_isAny] at h ⊢
    exact isAny_eq_false h (by decide)
  rw [isReexport, other, Bool.false_and]

theorem isSome_imported? (modules : HasModules root) (mem : n ∈ root.preorder) :
    (imported? s n).isSome = bringsImport n := by
  unfold imported? bringsImport
  split_ifs with isImport isExport
  · simp [import?, isImport, isRequire, isReexport_eq_false isImport,
      modules.imports n mem isImport]
  · simp [reexport?, isImport, isReexport, isExport, modules.reexports n mem isExport]
  · simp [isImport, isReexport, isExport]

theorem map_filter_isSome {α β : Type} (f : α → Option β) (as : List α) :
    (as.filter fun a => (f a).isSome).map f = (as.filterMap f).map some := by
  induction as with
  | nil => rfl
  | cons a as ih => cases h : f a <;> simp [h, ih]

theorem countP_bringsImport (nodes : List Node) :
    nodes.countP bringsImport + nodes.countP (·.isRequire) =
      nodes.countP (·.isA .importStatement) + nodes.countP (·.isReexport) := by
  induction nodes with
  | nil => rfl
  | cons n rest ih =>
    have here : (if bringsImport n then 1 else 0) + (if n.isRequire then 1 else 0) =
        (if n.isA .importStatement then 1 else 0) + (if n.isReexport then 1 else 0) := by
      unfold bringsImport
      cases isImport : n.isA .importStatement with
      | true => cases n.isRequire <;> simp [isReexport_eq_false isImport]
      | false => simp [isRequire, isImport]
    simp only [List.countP_cons]
    omega

/-- Of a script that can be read, each statement that imports brings one entry, in the order of the
text, except for those that require. -/
theorem survey_imports {parser : Parser} {path content : String} {noted : FileSurvey}
    (finds : ∀ root, read path (.ofString content) parser = .ok root → HasModules root)
    (h : survey path content parser = .ok noted) :
    ∃ root, read path (.ofString content) parser = .ok root ∧
      (root.preorder.filter bringsImport).map (imported? (.ofString content)) =
        noted.imports.map some ∧
      noted.imports.length + root.preorder.countP (·.isRequire) =
        root.preorder.countP (·.isA .importStatement) + root.preorder.countP (·.isReexport) := by
  obtain ⟨root, ok, rfl⟩ := Digest.survey_eq_ok_iff.mp h
  have modules := finds root ok
  have each : (root.preorder.filter bringsImport).map (imported? (.ofString content)) =
      (surveyTree (.ofString content) root).imports.map some := by
    rw [imports_eq _ modules, ← map_filter_isSome]
    exact congrArg _ (List.filter_congr fun n mem => (isSome_imported? _ modules mem).symm)
  refine ⟨root, ok, each, ?_⟩
  have length := congrArg List.length each
  rw [List.length_map, List.length_map, ← List.countP_eq_length_filter] at length
  rw [← length, countP_bringsImport]

def requireText : String := "import a = require('a'); export * from 'b';"

def requireTree : Node :=
  phrase .program none 0 43 [
    phrase .importStatement none 0 24 [
      word "import" none 0,
      phrase .importRequireClause none 7 23 [
        phrase .identifier none 7 8 [],
        word "=" none 9,
        word "require" none 11,
        word "(" none 18,
        phrase .string (some .source) 19 22 [
          word "'" none 19,
          phrase .stringFragment none 20 21 [],
          word "'" none 21],
        word ")" none 22],
      word ";" none 23],
    phrase .exportStatement none 25 43 [
      word "export" none 25,
      word "*" none 32,
      word "from" none 34,
      phrase .string (some .source) 39 42 [
        word "'" none 39,
        phrase .stringFragment none 40 41 [],
        word "'" none 41],
      word ";" none 42]]

def requireParser : Parser := fun _ source =>
  if source.chars = requireText.toList then some requireTree else none

theorem requireTree_modules : HasModules requireTree where
  program := by decide
  leaves := by
    have none : ∀ n ∈ requireTree.preorder, n.isNamed = false → n.children.isEmpty = true := by decide
    exact fun n mem unnamed => List.isEmpty_iff.mp (none n mem unnamed)
  imports := by decide
  reexports := by decide

theorem requireParser_finds {root : Node}
    (ok : read "a.ts" (.ofString requireText) requireParser = .ok root) : HasModules root := by
  obtain ⟨dialect, known, -⟩ := Digest.parsed_of_read ok
  exact Option.some.inj known ▸ requireTree_modules

theorem survey_requireText : survey "a.ts" requireText requireParser =
    .ok { imports := [⟨"*", "b"⟩] } := by
  rfl

theorem survey_imports_require :
    (∀ root, read "a.ts" (.ofString requireText) requireParser = .ok root → HasModules root) ∧
      survey "a.ts" requireText requireParser = .ok { imports := [⟨"*", "b"⟩] } ∧
      ∃ root, read "a.ts" (.ofString requireText) requireParser = .ok root ∧
        (root.preorder.filter bringsImport).map (imported? (.ofString requireText)) =
          [some ⟨"*", "b"⟩] ∧
        1 + root.preorder.countP (·.isRequire) =
          root.preorder.countP (·.isA .importStatement) + root.preorder.countP (·.isReexport) :=
  ⟨fun _ => requireParser_finds, survey_requireText,
    survey_imports (fun _ => requireParser_finds) survey_requireText⟩

/-- An import that requires is lost. -/
theorem survey_loses_require :
    (∀ root, read "a.ts" (.ofString requireText) requireParser = .ok root → HasModules root) ∧
      ∃ noted root,
      survey "a.ts" requireText requireParser = .ok noted ∧
      read "a.ts" (.ofString requireText) requireParser = .ok root ∧
      noted.imports.length <
        root.preorder.countP (·.isA .importStatement) + root.preorder.countP (·.isReexport) :=
  ⟨fun _ => requireParser_finds, _, requireTree, survey_requireText, rfl, by decide⟩

end Script

end CodeSurvey
