import CodeSurvey.Script.Complexity
import CodeSurvey.Script.Survey
import CodeSurvey.Text.Blank

namespace CodeSurvey.Script

open Text

/-- Adds a name that is not empty and not in the list yet. -/
def pushUnique (names : List String) (name : String) : List String :=
  if name = "" || names.contains name then names else names ++ [name]

/-- A literal without its quotes. Quote marks of each kind are taken off on both sides, as many as
there are. -/
def unquote (literal : String) : String :=
  String.ofList (['"', '\'', '\x60'].foldl (fun cs mark => trimWhere (· = mark) cs) literal.toList)

def collapsed (s : String) : String := String.ofList (collapse s.toList)

/-- What stands for a parameter without a plain name. -/
def unnamedParameter : String := "unknown"

def functionDeclarations : List Category := [.functionDeclaration, .generatorFunctionDeclaration]

def classDeclarations : List Category := [.classDeclaration, .abstractClassDeclaration]

def variableDeclarations : List Category := [.lexicalDeclaration, .variableDeclaration]

variable (s : Source)

def parameter? (n : Node) : Option String :=
  if n.isAny [.comment, .decorator] then none
  else if n.isA .identifier then some (n.text s)
  else if n.isAny [.requiredParameter, .optionalParameter] then
    match n.child? .pattern, n.child? .value with
    | some p, none => some (if p.isA .identifier then p.text s else unnamedParameter)
    | _, _ => some unnamedParameter
  else some unnamedParameter

def parameters (n : Node) : List String := n.namedChildren.filterMap (parameter? s)

def parametersOf (n : Node) : List String :=
  match n.child? .parameters with
  | some p => parameters s p
  | none => []

def declaredNames (n : Node) : List String :=
  n.namedChildren.filterMap fun c =>
    if c.isA .variableDeclarator then
      match c.child? .name with
      | some name => if name.isA .identifier then some (name.text s) else none
      | none => none
    else none

def functionRecord? (n : Node) : Option FunctionRecord :=
  (n.child? .name).map fun name =>
    { name := name.text s, params := parametersOf s n, complexity := complexity n,
      lines := n.lineCount }

def memberKey? (key : Option Node) : Option String :=
  match key with
  | some k => if k.isA .propertyIdentifier then some (k.text s) else none
  | none => none

def addMember (c : ClassRecord) (n : Node) : ClassRecord :=
  if n.isA .methodDefinition then
    match memberKey? s (n.child? .name) with
    | some key => { c with methods := pushUnique c.methods key }
    | none => c
  else if n.isAny [.fieldDefinition, .publicFieldDefinition] then
    match memberKey? s (n.child? .property <|> n.child? .name) with
    | some key => { c with properties := pushUnique c.properties key }
    | none => c
  else c

def classRecord? (n : Node) : Option ClassRecord :=
  (n.child? .name).map fun name =>
    let members := match n.child? .body with
      | some body => body.namedChildren
      | none => []
    members.foldl (addMember s) { name := name.text s, methods := [], properties := [] }

end CodeSurvey.Script
