import CodeSurvey.Script.Inventory

namespace CodeSurvey.Digest

open Script

/-- An arrow function that a variable is bound to. -/
structure ArrowRecord where
  keyword : String
  name : String
  params : List String
deriving DecidableEq, Repr

/-- What a declaration at the top of a script brings. -/
inductive Item where
  | ofFunction (name : String) (params : List String)
  | ofClass (c : ClassRecord)
  | ofArrow (a : ArrowRecord)
deriving DecidableEq, Repr

def commaList (names : List String) : String := ", ".intercalate names

namespace Item

def line : Item → String
  | ofFunction name params => "// function " ++ name ++ "(" ++ commaList params ++ ")"
  | ofClass c =>
    let members := if c.methods.isEmpty then ""
      else " " ++ commaList (c.methods.map (· ++ "()")) ++ " "
    "// class " ++ c.name ++ " \x7b" ++ members ++ "\x7d"
  | ofArrow a => "// " ++ a.keyword ++ " " ++ a.name ++ " = (" ++ commaList a.params ++
      ") => \x7b…\x7d"

def isFunction : Item → Bool
  | ofFunction .. => true
  | _ => false

def isClass : Item → Bool
  | ofClass _ => true
  | _ => false

def isArrow : Item → Bool
  | ofArrow _ => true
  | _ => false

end Item

variable (s : Source)

/-- The parameters of an arrow function, which may be a single name without parentheses. -/
def arrowParameters (value : Node) : List String :=
  match value.child? .parameters, value.child? .parameter with
  | some p, _ => parameters s p
  | none, some p => [p.text s]
  | none, none => []

def arrow? (keyword : String) (declarator : Node) : Option ArrowRecord :=
  if declarator.isA .variableDeclarator then
    match declarator.child? .name, declarator.child? .value with
    | some name, some value =>
      if name.isA .identifier && value.isA .arrowFunction then
        some { keyword, name := name.text s, params := arrowParameters s value }
      else none
    | _, _ => none
  else none

def keywordOf (n : Node) : String :=
  if n.isA .variableDeclaration then "var"
  else match n.children.head? with
    | some first => first.text s
    | none => "const"

def itemsOf (n : Node) : List Item :=
  if n.isAny functionDeclarations then
    ((n.child? .name).map fun name => Item.ofFunction (name.text s) (parametersOf s n)).toList
  else if n.isAny classDeclarations then ((classRecord? s n).map Item.ofClass).toList
  else if n.isAny variableDeclarations then
    (n.namedChildren.filterMap (arrow? s (keywordOf s n))).map Item.ofArrow
  else []

/-- The declaration that a statement at the top of a script makes, exported or not. -/
def declarationOf? (n : Node) : Option Node :=
  if n.isA .exportStatement then n.child? .declaration else some n

def topItems (root : Node) : List Item :=
  root.namedChildren.flatMap fun n =>
    match declarationOf? n with
    | some d => itemsOf s d
    | none => []

def importLine (i : ImportRecord) : String :=
  if i.specifiers = "" then "// import '" ++ i.source ++ "'"
  else "// import " ++ i.specifiers ++ " from '" ++ i.source ++ "'"

/-- The outline of a script in groups, each with its heading. -/
structure Outline where
  imports : List ImportRecord
  exports : List String
  items : List Item
deriving DecidableEq, Repr

def outline (root : Node) : Outline :=
  let survey := surveyTree s root
  { imports := survey.imports, exports := survey.exports, items := topItems s root }

namespace Outline

variable (o : Outline)

def functions : List Item := o.items.filter (·.isFunction)

def classes : List Item := o.items.filter (·.isClass)

def arrows : List Item := o.items.filter (·.isArrow)

def groups : List (String × List String) := [
  ("// Imports", o.imports.map importLine),
  ("// Exports", o.exports.map ("// export " ++ ·)),
  ("// Functions", o.functions.map (·.line)),
  ("// Classes", o.classes.map (·.line)),
  ("// Arrow functions", o.arrows.map (·.line))]

def lines : List String :=
  [""].intercalate ((o.groups.filter (!·.2.isEmpty)).map fun (heading, group) => heading :: group)

end Outline

end CodeSurvey.Digest
