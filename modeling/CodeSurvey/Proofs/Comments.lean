import CodeSurvey.Proofs.Outline
import CodeSurvey.Proofs.Segments

namespace CodeSurvey.Digest

open Node Script Text

/-- Whether a line is a comment, or empty. -/
def IsComment (line : List Char) : Prop := line = [] ∨ ['/', '/'] <+: line

/-- Whether all lines of a text are comments. -/
def Commented (text : String) : Prop := ∀ line ∈ lines text.toList, IsComment line

/-- Whether all lines of a text after the first are comments. -/
def GoesOnCommented (text : String) : Prop := ∀ line ∈ (lines text.toList).tail, IsComment line

instance (line : List Char) : Decidable (IsComment line) := inferInstanceAs (Decidable (_ ∨ _))

instance (text : String) : Decidable (GoesOnCommented text) :=
  inferInstanceAs (Decidable (∀ line ∈ _, IsComment line))

section Lines

theorem commented_append {opening : String} (plain : '\n' ∉ opening.toList)
    (comment : ['/', '/'] <+: opening.toList) (rest : String) :
    Commented (opening ++ rest) ↔ GoesOnCommented rest := by
  obtain ⟨first, others, eq, whole⟩ := lines_append plain rest.toList
  rw [Commented, GoesOnCommented, String.toList_append, whole, eq, List.forall_mem_cons,
    List.tail_cons]
  exact and_iff_right (.inr (comment.trans (List.prefix_append _ _)))

theorem commented_of_notMem {text : String} (plain : '\n' ∉ text.toList)
    (comment : ['/', '/'] <+: text.toList) : Commented text := by
  have whole := (commented_append plain comment "").mpr nofun
  rwa [String.append_empty] at whole

theorem commented_empty : Commented "" := by
  intro line mem
  exact .inl (List.mem_singleton.mp mem)

theorem commented_intercalate {texts : List String} (ne : texts ≠ []) :
    Commented ("\n".intercalate texts) ↔ ∀ text ∈ texts, Commented text := by
  induction texts with
  | nil => exact absurd rfl ne
  | cons first rest ih =>
    cases rest with
    | nil => simp
    | cons second others =>
      have breaks (xs ys : String) :
          Commented (xs ++ "\n" ++ ys) ↔ Commented xs ∧ Commented ys := by
        have eq : (xs ++ "\n" ++ ys).toList = xs.toList ++ '\n' :: ys.toList := by simp
        rw [Commented, eq, lines_append_break, List.forall_mem_append]
        rfl
      rw [String.intercalate_cons_cons, breaks, ih (List.cons_ne_nil _ _)]
      simp only [List.forall_mem_cons]

theorem commented_joinLines (texts : List String) :
    Commented (joinLines texts) ↔ ∀ text ∈ texts, Commented text := by
  cases texts with
  | nil => exact iff_of_true (commented_of_notMem (by decide) (by decide)) nofun
  | cons first rest => exact commented_intercalate (List.cons_ne_nil _ _)

end Lines

/-- Whether a text has no line break. -/
def OneLine (text : String) : Prop := '\n' ∉ text.toList

instance (text : String) : Decidable (OneLine text) := inferInstanceAs (Decidable (_ ∉ _))

section OneLine

@[simp] theorem oneLine_append {a b : String} : OneLine (a ++ b) ↔ OneLine a ∧ OneLine b := by
  simp [OneLine]

theorem oneLine_intercalate {mark : String} (hm : OneLine mark) {texts : List String}
    (h : ∀ text ∈ texts, OneLine text) : OneLine (mark.intercalate texts) := by
  induction texts with
  | nil => exact List.not_mem_nil
  | cons first rest ih =>
    obtain ⟨hf, hr⟩ := List.forall_mem_cons.mp h
    cases rest with
    | nil => simpa using hf
    | cons second others =>
      rw [String.intercalate_cons_cons, oneLine_append, oneLine_append]
      exact ⟨⟨hf, hm⟩, ih hr⟩

theorem oneLine_commaList {names : List String} (h : ∀ name ∈ names, OneLine name) :
    OneLine (commaList names) :=
  oneLine_intercalate (by decide) h

theorem break_notMem_trim {line : List Char} (h : '\n' ∉ line) : '\n' ∉ trim line := by
  intro mem
  have mem := List.mem_reverse.mp mem
  have mem := (List.dropWhile_sublist _).subset mem
  exact h ((List.dropWhile_sublist _).subset (List.mem_reverse.mp mem))

theorem oneLine_collapsed (text : String) : OneLine (collapsed text) := by
  have eq : collapsed text = " ".intercalate ((words text.toList).map String.ofList) := by
    rw [← String.toList_inj, collapsed, String.toList_ofList, String.toList_intercalate, collapse]
    simp [Function.comp_def]
  rw [eq]
  refine oneLine_intercalate (by decide) fun piece mem => ?_
  obtain ⟨word, hw, rfl⟩ := List.mem_map.mp mem
  rw [OneLine, String.toList_ofList]
  intro break_
  have blank := unmarked_of_mem_splitWhere (List.mem_filter.mp hw).1 _ break_
  exact absurd blank (by decide)

end OneLine

theorem commented_digestLines (content : String) : Commented (joinLines (digestLines content)) := by
  refine (commented_joinLines _).mpr fun text mem => ?_
  obtain ⟨line, hl, digest⟩ := List.mem_filterMap.mp mem
  have plain : '\n' ∉ trim line := break_notMem_trim (notMem_of_mem_splitWhere hl)
  unfold digestLine? at digest
  split at digest
  next => cases digest
  next =>
    obtain ⟨kind, -, rfl⟩ := Option.map_eq_some_iff.mp digest
    refine commented_of_notMem ?_ (by simp)
    have name : OneLine kind.name := by cases kind <;> decide
    have kept : OneLine (String.ofList ((trim line).take maxLineLength)) := by
      simpa [OneLine] using mt List.mem_of_mem_take plain
    change OneLine _
    simp only [oneLine_append]
    exact ⟨⟨⟨by decide, name⟩, by decide⟩, kept⟩

/-- Whether no text of an item has a line break. -/
def Item.IsPlain : Item → Prop
  | ofFunction name params => OneLine name ∧ ∀ param ∈ params, OneLine param
  | ofClass c => OneLine c.name ∧ ∀ method ∈ c.methods, OneLine method
  | ofArrow a => OneLine a.keyword ∧ OneLine a.name ∧ ∀ param ∈ a.params, OneLine param

theorem Item.commented_line {item : Item} (plain : item.IsPlain) : Commented item.line := by
  refine commented_of_notMem (show OneLine item.line from ?_) ?_
  · cases item with
    | ofFunction name params =>
      obtain ⟨name, params⟩ := plain
      have list := oneLine_commaList params
      simp only [line, oneLine_append]
      exact ⟨⟨⟨⟨by decide, name⟩, by decide⟩, list⟩, by decide⟩
    | ofClass c =>
      obtain ⟨name, methods⟩ := plain
      have list : OneLine (commaList (c.methods.map (· ++ "()"))) := by
        refine oneLine_commaList (List.forall_mem_map.mpr fun method mem => ?_)
        exact oneLine_append.mpr ⟨methods method mem, by decide⟩
      have members : OneLine (if c.methods.isEmpty then ""
          else " " ++ commaList (c.methods.map (· ++ "()")) ++ " ") := by
        split
        next => decide
        next => simpa only [oneLine_append] using ⟨⟨by decide, list⟩, by decide⟩
      simp only [line, oneLine_append]
      exact ⟨⟨⟨⟨by decide, name⟩, by decide⟩, members⟩, by decide⟩
    | ofArrow a =>
      obtain ⟨keyword, name, params⟩ := plain
      have list := oneLine_commaList params
      simp only [line, oneLine_append]
      exact ⟨⟨⟨⟨⟨⟨by decide, keyword⟩, by decide⟩, name⟩, by decide⟩, list⟩, by decide⟩
  · cases item <;> simp [line]

section Trees

variable (s : Source)

/-- What is relied on in the tree of a script: names are words, and where a declaration has its name,
or an arrow function its parameter without parentheses, a word stands. -/
structure PlainNames (root : Node) : Prop where
  program : root.isA .program = true
  names : ∀ n ∈ root.preorder,
    n.isAny [.identifier, .typeIdentifier, .propertyIdentifier] = true → OneLine (n.text s)
  declared : ∀ n ∈ root.preorder, n.isAny (functionDeclarations ++ classDeclarations) = true →
    ∀ name ∈ n.child? .name, name.isAny [.identifier, .typeIdentifier] = true
  bare : ∀ n ∈ root.preorder, n.isA .arrowFunction = true →
    ∀ name ∈ n.child? .parameter, name.isA .identifier = true
  keyword : ∀ n ∈ root.preorder, n.isA .lexicalDeclaration = true →
    ∀ word ∈ n.children.head?, word.text s = "let" ∨ word.text s = "const"

variable {s} {root n : Node} (plain : PlainNames s root)

include plain

theorem PlainNames.oneLine_isA (mem : n ∈ root.preorder) {c : Category}
    (isA : n.isA c = true) (hc : c ∈ [Category.identifier, .typeIdentifier, .propertyIdentifier]) :
    OneLine (n.text s) :=
  plain.names n mem (List.any_eq_true.mpr ⟨c, hc, isA⟩)

theorem PlainNames.oneLine_parameter (mem : n ∈ root.preorder) {name : String}
    (h : parameter? s n = some name) : OneLine name := by
  have unnamed : OneLine unnamedParameter := by decide
  unfold parameter? at h
  split_ifs at h with skipped identifier typed
  · exact Option.some.inj h ▸ plain.oneLine_isA mem identifier (by decide)
  · split at h
    next p pattern value =>
      split_ifs at h with identifier
      · have below : p ∈ root.preorder := role_mem_preorder pattern mem
        exact Option.some.inj h ▸ plain.oneLine_isA below identifier (by decide)
      · exact Option.some.inj h ▸ unnamed
    next => exact Option.some.inj h ▸ unnamed
  · exact Option.some.inj h ▸ unnamed

theorem PlainNames.oneLine_parameters (mem : n ∈ root.preorder) :
    ∀ name ∈ parameters s n, OneLine name := by
  intro name h
  obtain ⟨p, hp, named⟩ := List.mem_filterMap.mp h
  exact plain.oneLine_parameter (namedChild_mem_preorder hp mem) named

theorem PlainNames.oneLine_declared (mem : n ∈ root.preorder)
    (h : n.isAny (functionDeclarations ++ classDeclarations) = true) {name : Node}
    (hn : n.child? .name = some name) : OneLine (name.text s) := by
  obtain ⟨c, hc, isA⟩ := List.any_eq_true.mp (plain.declared n mem h name hn)
  exact plain.oneLine_isA (role_mem_preorder hn mem) isA
    ((by decide : [Category.identifier, .typeIdentifier] ⊆ _) hc)

theorem PlainNames.oneLine_memberKey {key : Option Node} (mem : ∀ k ∈ key, k ∈ root.preorder)
    {name : String} (h : memberKey? s key = some name) : OneLine name := by
  unfold memberKey? at h
  split at h
  next k =>
    split_ifs at h with identifier
    exact Option.some.inj h ▸ plain.oneLine_isA (mem k rfl) identifier (by decide)
  next => cases h

theorem PlainNames.isPlain_addMember (mem : n ∈ root.preorder) {c : ClassRecord}
    (hc : (Item.ofClass c).IsPlain) : (Item.ofClass (addMember s c n)).IsPlain := by
  unfold addMember
  split_ifs with method property
  · split
    next key found =>
      have name := plain.oneLine_memberKey (fun k hk => role_mem_preorder hk mem) found
      refine ⟨hc.1, fun m hm => ?_⟩
      unfold pushUnique at hm
      split_ifs at hm
      · exact hc.2 m hm
      · rcases List.mem_append.mp hm with hm | hm
        · exact hc.2 m hm
        · exact List.mem_singleton.mp hm ▸ name
    next => exact hc
  · split
    next => exact hc
    next => exact hc
  · exact hc

theorem PlainNames.isPlain_classRecord (mem : n ∈ root.preorder)
    (isClass : n.isAny classDeclarations = true) {c : ClassRecord}
    (h : classRecord? s n = some c) : (Item.ofClass c).IsPlain := by
  obtain ⟨name, hn, rfl⟩ := Option.map_eq_some_iff.mp h
  have declares : n.isAny (functionDeclarations ++ classDeclarations) = true :=
    isAny_append.trans (by rw [isClass, Bool.or_true])
  have start : (Item.ofClass { name := name.text s, methods := [], properties := [] }).IsPlain :=
    ⟨plain.oneLine_declared mem declares hn, List.forall_mem_nil _⟩
  refine List.foldlRecOn (motive := fun c => (Item.ofClass c).IsPlain) _ _ start
    fun c hc member hm => plain.isPlain_addMember ?_ hc
  split at hm
  next body hb => exact namedChild_mem_preorder hm (role_mem_preorder hb mem)
  next => exact absurd hm List.not_mem_nil

theorem PlainNames.oneLine_keywordOf (mem : n ∈ root.preorder)
    (isVariable : n.isAny variableDeclarations = true) : OneLine (keywordOf s n) := by
  unfold keywordOf
  split
  next => decide
  next other =>
    have lexical : n.isA .lexicalDeclaration = true := by
      simpa [isAny, variableDeclarations, other] using isVariable
    split
    next word first =>
      rcases plain.keyword n mem lexical word first with eq | eq <;> rw [eq] <;> decide
    next => decide

theorem PlainNames.oneLine_arrowParameters (mem : n ∈ root.preorder)
    (isArrow : n.isA .arrowFunction = true) : ∀ name ∈ arrowParameters s n, OneLine name := by
  unfold arrowParameters
  cases listed : n.child? .parameters with
  | some p =>
    exact plain.oneLine_parameters (role_mem_preorder listed mem)
  | none =>
    cases single : n.child? .parameter with
    | some p =>
      have below : p ∈ root.preorder := role_mem_preorder single mem
      have name := plain.oneLine_isA below (plain.bare n mem isArrow p single) (by decide)
      exact List.forall_mem_singleton.mpr name
    | none => exact nofun

theorem PlainNames.isPlain_arrow {d : Node} (declaration : d ∈ root.preorder)
    (isVariable : d.isAny variableDeclarations = true) (mem : n ∈ root.preorder) {a : ArrowRecord}
    (h : arrow? s (keywordOf s d) n = some a) : (Item.ofArrow a).IsPlain := by
  unfold arrow? at h
  split_ifs at h
  split at h
  next name value hn hv =>
    split_ifs at h with both
    obtain ⟨identifier, isArrow⟩ := Bool.and_eq_true_iff.mp both
    cases h
    exact ⟨plain.oneLine_keywordOf declaration isVariable,
      plain.oneLine_isA (role_mem_preorder hn mem) identifier
        (by decide),
      plain.oneLine_arrowParameters (role_mem_preorder hv mem)
        isArrow⟩
  next => cases h

theorem PlainNames.isPlain_itemsOf {d : Node} (mem : d ∈ root.preorder) :
    ∀ item ∈ itemsOf s d, item.IsPlain := by
  intro item h
  unfold itemsOf at h
  split_ifs at h with isFunction isClass isVariable
  · obtain ⟨name, hn, rfl⟩ := Option.map_eq_some_iff.mp (Option.mem_toList.mp h)
    have declares : d.isAny (functionDeclarations ++ classDeclarations) = true :=
      isAny_append.trans (by rw [isFunction, Bool.true_or])
    refine ⟨plain.oneLine_declared mem declares hn, ?_⟩
    unfold parametersOf
    split
    next p hp =>
      exact plain.oneLine_parameters (role_mem_preorder hp mem)
    next => exact nofun
  · obtain ⟨c, hc, rfl⟩ := Option.map_eq_some_iff.mp (Option.mem_toList.mp h)
    exact plain.isPlain_classRecord mem isClass hc
  · obtain ⟨a, ha, rfl⟩ := List.mem_map.mp h
    obtain ⟨declarator, hd, ha⟩ := List.mem_filterMap.mp ha
    exact plain.isPlain_arrow mem isVariable
      (namedChild_mem_preorder hd mem) ha
  · cases h

theorem PlainNames.isPlain_topItems : ∀ item ∈ topItems s root, item.IsPlain := by
  intro item h
  rw [topItems_eq] at h
  obtain ⟨d, hd, h⟩ := List.mem_flatMap.mp h
  refine plain.isPlain_itemsOf ?_ item h
  obtain ⟨n, hn, hd⟩ := List.mem_flatMap.mp hd
  have mem : n ∈ root.preorder :=
    namedChild_mem_preorder hn (self_mem_preorder root)
  unfold declarationOf? at hd
  split at hd
  next => exact role_mem_preorder (Option.mem_toList.mp hd) mem
  next => exact Option.some.inj (Option.mem_toList.mp hd) ▸ mem

theorem PlainNames.oneLine_specifiers :
    ∀ i ∈ (outline s root).imports, OneLine i.specifiers := by
  intro i h
  have clause (clause : Option Node) {none : String} (hn : OneLine none) :
      OneLine ((clause.map fun c => collapsed (c.text s)).getD none) := by
    cases clause with
    | none => exact hn
    | some c => exact oneLine_collapsed _
  have imports : (outline s root).imports = (reached root).filterMap (imported? s) := by
    simp only [outline, surveyTree_eq_added s plain.program]
    rfl
  rw [imports] at h
  obtain ⟨n, -, imported⟩ := List.mem_filterMap.mp h
  unfold imported? at imported
  split_ifs at imported
  · obtain ⟨source, -, rfl⟩ := Option.map_eq_some_iff.mp imported
    exact clause _ (by decide)
  · obtain ⟨source, -, rfl⟩ := Option.map_eq_some_iff.mp imported
    exact clause _ (by decide)

end Trees

theorem commented_importLine {i : ImportRecord} (h : OneLine i.specifiers) :
    Commented (importLine i) ↔ GoesOnCommented (i.source ++ "'") := by
  unfold importLine
  split
  next =>
    rw [String.append_assoc]
    exact commented_append (by decide) (by decide) _
  next =>
    rw [String.append_assoc]
    refine commented_append (show OneLine _ from ?_) (by simp) _
    simp only [oneLine_append]
    exact ⟨⟨by decide, h⟩, by decide⟩

theorem commented_heading {o : Outline} : ∀ group ∈ o.groups, Commented group.1 := by
  simp only [Outline.groups, List.forall_mem_cons]
  have heading {text : String} (plain : OneLine text) (comment : ['/', '/'] <+: text.toList) :=
    commented_of_notMem plain comment
  refine ⟨heading ?_ ?_, heading ?_ ?_, heading ?_ ?_, heading ?_ ?_, heading ?_ ?_, List.forall_mem_nil _⟩
  all_goals decide

theorem commented_groups (groups : List (List String)) :
    (∀ line ∈ [""].intercalate groups, Commented line) ↔
      ∀ group ∈ groups, ∀ line ∈ group, Commented line := by
  induction groups with
  | nil => exact iff_of_true nofun nofun
  | cons first rest ih =>
    cases rest with
    | nil => simp
    | cons second others =>
      rw [List.intercalate_cons_cons, List.forall_mem_append, List.forall_mem_append, ih]
      simp only [List.forall_mem_cons, commented_empty, List.not_mem_nil, false_implies, implies_true,
        and_true]

theorem commented_lines (o : Outline) :
    (∀ line ∈ o.lines, Commented line) ↔ ∀ group ∈ o.groups, ∀ line ∈ group.2, Commented line := by
  rw [Outline.lines, commented_groups, List.forall_mem_map]
  constructor
  · intro h group mem line hl
    have shown : group ∈ o.groups.filter (!·.2.isEmpty) :=
      List.mem_filter.mpr ⟨mem, by simpa using List.ne_nil_of_mem hl⟩
    exact h group shown line (List.mem_cons_of_mem _ hl)
  · intro h group shown
    have mem := (List.mem_filter.mp shown).1
    exact List.forall_mem_cons.mpr ⟨commented_heading group mem, h group mem⟩

/-- Where an outline may be something else than comments. -/
theorem commented_outline_iff {o : Outline} (items : ∀ item ∈ o.items, item.IsPlain)
    (specifiers : ∀ i ∈ o.imports, OneLine i.specifiers) :
    Commented (joinLines o.lines) ↔
      (∀ i ∈ o.imports, GoesOnCommented (i.source ++ "'")) ∧
        ∀ name ∈ o.exports, GoesOnCommented name := by
  have shown (kind : Item → Bool) : ∀ item ∈ o.items.filter kind, Commented item.line :=
    fun item mem => Item.commented_line (items item (List.mem_filter.mp mem).1)
  have imports : (∀ i ∈ o.imports, Commented (importLine i)) ↔
      ∀ i ∈ o.imports, GoesOnCommented (i.source ++ "'") :=
    forall₂_congr fun i mem => commented_importLine (specifiers i mem)
  have exports : (∀ name ∈ o.exports, Commented ("// export " ++ name)) ↔
      ∀ name ∈ o.exports, GoesOnCommented name :=
    forall₂_congr fun name _ => commented_append (by decide) (by decide) name
  rw [commented_joinLines, commented_lines]
  simp only [Outline.groups, List.forall_mem_cons, List.forall_mem_map, imports, exports]
  constructor
  · rintro ⟨hi, he, -⟩
    exact ⟨hi, he⟩
  · rintro ⟨hi, he⟩
    exact ⟨hi, he, shown _, shown _, shown _, List.forall_mem_nil _⟩

theorem read_of_outline? {path content : String} {parser : Parser} {o : Outline}
    (h : outline? path content parser = some o) :
    ∃ root, Script.read path (.ofString content) parser = .ok root ∧
      outline (.ofString content) root = o := by
  unfold outline? at h
  dsimp only at h
  split at h
  next root ok => exact ⟨root, ok, Option.some.inj h⟩
  next => cases h

/-- A digest consists of comments if no line break in the name of a module or in an exported name is
followed by something else. -/
theorem digestFile_commented_iff {parser : Parser} {path content : String}
    (plain : ∀ root, Script.read path (.ofString content) parser = .ok root →
      PlainNames (.ofString content) root) :
    Commented (digestFile path content parser).text ↔
      ∀ o, outline? path content parser = some o →
        (∀ i ∈ o.imports, GoesOnCommented (i.source ++ "'")) ∧
          ∀ name ∈ o.exports, GoesOnCommented name := by
  unfold digestFile
  cases h : outline? path content parser with
  | none => exact iff_of_true (commented_digestLines content) nofun
  | some o =>
    obtain ⟨root, read, rfl⟩ := read_of_outline? h
    have names := plain root read
    simp only [Option.some.injEq, forall_eq']
    exact commented_outline_iff names.isPlain_topItems names.oneLine_specifiers

def continuedText : String := "import x from 'a\\\nb';"

def continuedTree : Node :=
  phrase .program none 0 21 [
    phrase .importStatement none 0 21 [
      word "import" none 0,
      phrase .importClause none 7 8 [phrase .identifier none 7 8 []],
      word "from" none 9,
      phrase .string (some .source) 14 20 [
        word "'" none 14,
        phrase .stringFragment none 15 16 [],
        phrase .escapeSequence none 16 18 [],
        phrase .stringFragment none 18 19 [],
        word "'" none 19],
      word ";" none 20]]
where
  part (kind : Kind) (role : Option Role) (start stop : Nat) (children : List Node) : Node :=
    .mk {
      kind
      role
      start := (Source.ofString continuedText).positionAt start
      stop := (Source.ofString continuedText).positionAt stop } children
  phrase (c : Category) := part c
  word (text : String) (role : Option Role) (start : Nat) : Node :=
    part (.text text) role start (start + text.length) []

def knownTexts : Parser := fun _ source =>
  if source.chars = sampleText.toList then some sampleTree
  else if source.chars = continuedText.toList then some continuedTree
  else none

theorem sampleTree_plain : PlainNames (.ofString sampleText) sampleTree where
  program := by decide
  names := by decide +kernel
  declared := by decide +kernel
  bare := by decide +kernel
  keyword := by decide +kernel

theorem continuedTree_plain : PlainNames (.ofString continuedText) continuedTree where
  program := by decide +kernel
  names := by decide +kernel
  declared := by decide +kernel
  bare := by decide +kernel
  keyword := by decide +kernel

theorem digestFile_commented_sample :
    (∀ root, Script.read "a.js" (.ofString sampleText) knownTexts = .ok root →
      PlainNames (.ofString sampleText) root) ∧
      Commented (digestFile "a.js" sampleText knownTexts).text ∧
      (digestFile "a.js" sampleText knownTexts).text =
        "// Exports\n// export f\n\n// Functions\n// function g(x)\n\n" ++
          "// Arrow functions\n// let f = (a) => \x7b…\x7d" := by
  have plain : ∀ root, Script.read "a.js" (.ofString sampleText) knownTexts = .ok root →
      PlainNames (.ofString sampleText) root := by
    intro root read
    obtain ⟨dialect, known, -⟩ := parsed_of_read read
    exact Option.some.inj known ▸ sampleTree_plain
  have safe : ∀ o ∈ outline? "a.js" sampleText knownTexts,
      (∀ i ∈ o.imports, GoesOnCommented (i.source ++ "'")) ∧
        ∀ name ∈ o.exports, GoesOnCommented name := by
    decide +kernel
  exact ⟨plain, (digestFile_commented_iff plain).mpr safe, by decide +kernel⟩

/-- A line break in the name of a module brings a line that is no comment. -/
theorem digestFile_continued :
    (∀ root, Script.read "a.js" (.ofString continuedText) knownTexts = .ok root →
      PlainNames (.ofString continuedText) root) ∧
      (digestFile "a.js" continuedText knownTexts).text = "// Imports\n// import x from 'a\\\nb'" ∧
      ¬Commented (digestFile "a.js" continuedText knownTexts).text := by
  have text : (digestFile "a.js" continuedText knownTexts).text =
      "// Imports\n// import x from 'a\\\nb'" := by decide +kernel
  have plain : ∀ root, Script.read "a.js" (.ofString continuedText) knownTexts = .ok root →
      PlainNames (.ofString continuedText) root := by
    intro root read
    obtain ⟨dialect, known, -⟩ := parsed_of_read read
    exact Option.some.inj known ▸ continuedTree_plain
  refine ⟨plain, text, fun commented => ?_⟩
  rw [text] at commented
  rcases commented "b'".toList (by decide) with none | comment
  · exact absurd none (by decide)
  · exact absurd comment (by decide)

end CodeSurvey.Digest
