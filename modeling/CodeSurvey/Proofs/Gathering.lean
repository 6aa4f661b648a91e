import CodeSurvey.Proofs.Inventory

namespace CodeSurvey.Script

open Node

variable (s : Source)

def textsOf (c : Category) (nodes : List Node) : List String :=
  (nodes.filter (·.isA c)).map (·.text s)

def roleText (f : Role) (n : Node) : String := ((n.child? f).map (·.text s)).getD ""

/-- The words of the first clause of a statement, or what stands for none. -/
def clauseText (cs : List Category) (otherwise : String) (n : Node) : String :=
  ((n.namedChildren.filter (·.isAny cs)).map fun clause => collapsed (clause.text s)).headD otherwise

def importEntry (n : Node) : ImportRecord where
  specifiers :=
    if n.isA .importStatement then clauseText s [.importClause] "" n
    else clauseText s [.exportClause, .namespaceExport] "*" n
  source := unquote (roleText s .source n)

def boundNames (n : Node) : List String :=
  textsOf s .identifier
    ((n.namedChildren.filter (·.isA .variableDeclarator)).filterMap (·.child? .name))

/-- The names that an export statement contributes. -/
def contributedNames (n : Node) : List String :=
  if n.children.any (·.isText "default") then ["default"]
  else
    match n.child? .declaration with
    | some d =>
      if d.isAny variableDeclarations then boundNames s d
      else if d.isAny (functionDeclarations ++ classDeclarations) && (d.child? .name).isSome then
        [roleText s .name d]
      else []
    | none =>
      let specifiers := ((n.namedChildren.filter (·.isA .exportClause)).flatMap
        (·.namedChildren)).filter (·.isA .exportSpecifier)
      (specifiers.filterMap fun specifier =>
        [Role.otherName, .name].findSome? specifier.child?).map fun name => unquote (name.text s)

def functionEntry (n : Node) : FunctionRecord where
  name := roleText s .name n
  params := parametersOf s n
  complexity := complexity n
  lines := n.lineCount

/-- The plain keys of those members of a class that are of some categories. A key stands in the first
of some roles that its member has. -/
def memberNames (cs : List Category) (roles : List Role) (members : List Node) : List String :=
  textsOf s .propertyIdentifier
    ((members.filter (·.isAny cs)).filterMap fun member => roles.findSome? member.child?)

def membersOf (n : Node) : List Node := ((n.child? .body).map (·.namedChildren)).getD []

def classEntry (n : Node) : ClassRecord where
  name := roleText s .name n
  methods := distinctNames (memberNames s [.methodDefinition] [.name] (membersOf n))
  properties := distinctNames
    (memberNames s [.fieldDefinition, .publicFieldDefinition] [.property, .name] (membersOf n))

def has (f : Role) (n : Node) : Bool := (n.child? f).isSome

/-- What the nodes of a script say, list by list. -/
def gather (root : Node) : FileSurvey where
  imports := ((reached root).filter fun n =>
    n.isAny [.importStatement, .exportStatement] && has .source n).map (importEntry s)
  exports :=
    distinctNames (((reached root).filter (·.isA .exportStatement)).flatMap (contributedNames s))
  functions := ((reached root).filter fun n =>
    n.isAny functionDeclarations && has .name n).map (functionEntry s)
  classes := ((reached root).filter fun n =>
    n.isAny classDeclarations && has .name n).map (classEntry s)
  variableNames := distinctNames (((occurrences [] root).filter fun o =>
    o.node.isAny variableDeclarations && o.atTop).flatMap fun o => boundNames s o.node)
  complexity := complexity root

variable {n : Node} {nodes : List Node}

theorem filterMap_eq_map_filter {α β : Type} {f : α → Option β} {p : α → Bool} {g : α → β}
    (eq : ∀ a, f a = if p a then some (g a) else none) (as : List α) :
    as.filterMap f = (as.filter p).map g := by
  rw [← List.filterMap_eq_map, List.filterMap_filter]
  exact List.filterMap_congr fun a _ => eq a

theorem clauseText_eq (cs : List Category) (otherwise : String) (n : Node) :
    ((n.namedChildren.find? (·.isAny cs)).map fun clause => collapsed (clause.text s)).getD otherwise =
      clauseText s cs otherwise n := by
  rw [clauseText, List.headD_eq_head?_getD, List.head?_map, List.head?_filter]

theorem imported?_eq (n : Node) : imported? s n =
    if n.isAny [.importStatement, .exportStatement] && has .source n then some (importEntry s n)
    else none := by
  have first := clauseText_eq s [.importClause] "" n
  have second := clauseText_eq s [.exportClause, .namespaceExport] "*" n
  simp only [isAny, List.any_cons, List.any_nil, Bool.or_false] at first second ⊢
  unfold imported? import? reexport? importEntry has roleText
  cases n.child? .source <;> cases isImport : n.isA .importStatement <;>
    cases isExport : n.isA .exportStatement <;> simp_all [isAny]

theorem declaredNames_eq (n : Node) : declaredNames s n = boundNames s n := by
  unfold declaredNames boundNames textsOf
  induction n.namedChildren with
  | nil => rfl
  | cons c rest ih =>
    cases isDeclarator : c.isA .variableDeclarator with
    | false => simp [isDeclarator, ih]
    | true =>
      cases named : c.child? .name with
      | none => simp [isDeclarator, named, ih]
      | some name => cases isName : name.isA .identifier <;> simp [isDeclarator, named, isName, ih]

theorem findSome?_child (f g : Role) (n : Node) :
    [f, g].findSome? n.child? = (n.child? f <|> n.child? g) := by
  simp only [List.findSome?]
  cases n.child? f <;> cases n.child? g <;> rfl

theorem exportedNames_eq (n : Node) : exportedNames s n = contributedNames s n := by
  have named (d : Node) : namesOfDeclaration s d =
      if d.isAny variableDeclarations then boundNames s d
      else if d.isAny (functionDeclarations ++ classDeclarations) && (d.child? .name).isSome then
        [roleText s .name d]
      else [] := by
    unfold namesOfDeclaration roleText
    rw [declaredNames_eq]
    cases d.child? .name <;> simp
  have listed (specifiers : List Node) : specifiers.filterMap (exportedName? s) =
      ((specifiers.filter (·.isA .exportSpecifier)).filterMap fun specifier =>
        [Role.otherName, .name].findSome? specifier.child?).map fun name =>
          unquote (name.text s) := by
    rw [List.map_filterMap, List.filterMap_filter]
    refine List.filterMap_congr fun specifier _ => ?_
    rw [exportedName?, findSome?_child]
  unfold exportedNames contributedNames
  split
  next => rfl
  next =>
    cases n.child? .declaration with
    | some d => exact named d
    | none =>
      dsimp only
      rw [← listed, List.filterMap_flatMap]

theorem functionRecord?_eq (n : Node) :
    functionRecord? s n = if has .name n then some (functionEntry s n) else none := by
  unfold functionRecord? has functionEntry roleText
  cases n.child? .name <;> rfl

theorem memberNames_append (cs : List Category) (roles : List Role) (members more : List Node) :
    memberNames s cs roles (members ++ more) =
      memberNames s cs roles members ++ memberNames s cs roles more := by
  simp [memberNames, textsOf]

theorem memberNames_singleton (cs : List Category) (roles : List Role) (member : Node) :
    memberNames s cs roles [member] =
      if member.isAny cs then (memberKey? s (roles.findSome? member.child?)).toList else [] := by
  unfold memberNames textsOf memberKey?
  split
  next isMember =>
    cases key : roles.findSome? member.child? with
    | none => simp [isMember, key]
    | some k => cases isName : k.isA .propertyIdentifier <;> simp [isMember, key, isName]
  next other => simp [other]

theorem addMember_eq (c : ClassRecord) (member : Node) :
    addMember s c member = { c with
      methods := (memberNames s [.methodDefinition] [.name] [member]).foldl pushUnique c.methods
      properties := (memberNames s [.fieldDefinition, .publicFieldDefinition] [.property, .name]
        [member]).foldl pushUnique c.properties } := by
  have one : [Role.name].findSome? member.child? = member.child? .name := by
    simp only [List.findSome?]
    cases member.child? .name <;> rfl
  rw [memberNames_singleton, memberNames_singleton, findSome?_child, one, ← isA_eq_isAny]
  unfold addMember
  split
  next isMethod =>
    rw [isA_eq_isAny] at isMethod
    rw [isAny_eq_false isMethod (by decide), if_neg Bool.false_ne_true]
    cases memberKey? s (member.child? .name) <;> rfl
  next =>
    split
    next => cases memberKey? s (member.child? .property <|> member.child? .name) <;> rfl
    next => rfl

theorem foldl_addMember (c : ClassRecord) (members : List Node) :
    members.foldl (addMember s) c = { c with
      methods := (memberNames s [.methodDefinition] [.name] members).foldl pushUnique c.methods
      properties := (memberNames s [.fieldDefinition, .publicFieldDefinition] [.property, .name]
        members).foldl pushUnique c.properties } := by
  induction members generalizing c with
  | nil => rfl
  | cons member members ih =>
    have split (cs : List Category) (roles : List Role) : memberNames s cs roles (member :: members) =
        memberNames s cs roles [member] ++ memberNames s cs roles members :=
      memberNames_append s cs roles [member] members
    rw [List.foldl_cons, ih, addMember_eq, split, split, List.foldl_append, List.foldl_append]

theorem classRecord?_eq (n : Node) :
    classRecord? s n = if has .name n then some (classEntry s n) else none := by
  unfold classRecord? has classEntry roleText membersOf
  cases n.child? .name with
  | none => rfl
  | some name =>
    dsimp only [Option.map_some, Option.isSome_some]
    rw [foldl_addMember, foldl_pushUnique_nil, foldl_pushUnique_nil]
    cases n.child? .body <;> rfl

/-- One walk through a script finds what lists of its nodes say. -/
theorem surveyTree_eq_gather {root : Node} (script : IsScript root) :
    surveyTree s root = gather s root := by
  have tops : ((occurrences [] root).filter fun o =>
      o.node.isAny variableDeclarations && topBelow o.above) =
        (occurrences [] root).filter fun o => o.node.isAny variableDeclarations && o.atTop :=
    List.filter_congr fun o ho => by rw [topBelow_eq_atTop script ho]
  have exported : exportedNames s = contributedNames s := funext (exportedNames_eq s)
  have declared : declaredNames s = boundNames s := funext (declaredNames_eq s)
  rw [surveyTree_eq_added s script.program, added, tops, exported, declared]
  simp only [foldl_pushUnique_nil, List.nil_append, filterMap_eq_map_filter (imported?_eq s),
    filterMap_eq_map_filter (functionRecord?_eq s), filterMap_eq_map_filter (classRecord?_eq s),
    List.filter_filter, Bool.and_comm (has _ _)]
  rfl

def moduleText : String :=
  "import a from 'b'; export * from 'c'; export class D \x7b m() \x7b\x7d p = 1 \x7d " ++
    "function f(x) \x7b var y \x7d let v"

def moduleTree : Node :=
  phrase .program none 0 99 [
    phrase .importStatement none 0 18 [
      word "import" none 0,
      phrase .importClause none 7 8 [
        phrase .identifier none 7 8 []],
      word "from" none 9,
      phrase .string (some .source) 14 17 [
        word "'" none 14,
        phrase .stringFragment none 15 16 [],
        word "'" none 16],
      word ";" none 17],
    phrase .exportStatement none 19 37 [
      word "export" none 19,
      word "*" none 26,
      word "from" none 28,
      phrase .string (some .source) 33 36 [
        word "'" none 33,
        phrase .stringFragment none 34 35 [],
        word "'" none 35],
      word ";" none 36],
    phrase .exportStatement none 38 69 [
      word "export" none 38,
      phrase .classDeclaration (some .declaration) 45 69 [
        word "class" none 45,
        phrase .typeIdentifier (some .name) 51 52 [],
        phrase .classBody (some .body) 53 69 [
          word "\x7b" none 53,
          phrase .methodDefinition none 55 61 [
            phrase .propertyIdentifier (some .name) 55 56 [],
            phrase .formalParameters (some .parameters) 56 58 [
              word "(" none 56,
              word ")" none 57],
            phrase .statementBlock (some .body) 59 61 [
              word "\x7b" none 59,
              word "\x7d" none 60]],
          phrase .publicFieldDefinition none 62 67 [
            phrase .propertyIdentifier (some .name) 62 63 [],
            word "=" none 64,
            phrase .number (some .value) 66 67 []],
          word "\x7d" none 68]]],
    phrase .functionDeclaration none 70 93 [
      word "function" none 70,
      phrase .identifier (some .name) 79 80 [],
      phrase .formalParameters (some .parameters) 80 83 [
        word "(" none 80,
        phrase .requiredParameter none 81 82 [
          phrase .identifier (some .pattern) 81 82 []],
        word ")" none 82],
      phrase .statementBlock (some .body) 84 93 [
        word "\x7b" none 84,
        phrase .variableDeclaration none 86 91 [
          word "var" none 86,
          phrase .variableDeclarator none 90 91 [
            phrase .identifier (some .name) 90 91 []]],
        word "\x7d" none 92]],
    phrase .lexicalDeclaration none 94 99 [
      word "let" (some .kind) 94,
      phrase .variableDeclarator none 98 99 [
        phrase .identifier (some .name) 98 99 []]]]

theorem surveyTree_eq_gather_module :
    IsScript moduleTree ∧
      surveyTree (.ofString moduleText) moduleTree = gather (.ofString moduleText) moduleTree ∧
      gather (.ofString moduleText) moduleTree = {
        imports := [⟨"a", "b"⟩, ⟨"*", "c"⟩]
        exports := ["D"]
        functions := [⟨"f", ["x"], 1, 1⟩]
        classes := [⟨"D", ["m"], ["p"]⟩]
        variableNames := ["v"] } := by
  have script : IsScript moduleTree := ⟨by decide, by decide⟩
  exact ⟨script, surveyTree_eq_gather _ script, by decide +kernel⟩

end CodeSurvey.Script
