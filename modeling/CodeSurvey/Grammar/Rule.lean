import CodeSurvey.Syntax.Category

namespace CodeSurvey

/-- The role of a part within its phrase. -/
inductive Role where
  | alternative | argument | arguments | body | closeTag | condition | consequence | constraint
  | constructor | declaration | decorator | finalizer | flags | function | handler | increment
  | index | indexType | initializer | jsxAttribute | key | kind | label | left | member | moduleName
  | name | object | openTag | operator | optionalChain | otherName | parameter | parameters
  | pattern | property | returnType | right | sign | source | type | typeArguments
  | typeParameters | value
deriving DecidableEq, Repr, Inhabited

/-- The kind of a visible node: a category, a literal word or mark, or unreadable text. -/
inductive Kind where
  | category (c : Category)
  | text (s : String)
  | error
deriving DecidableEq, Repr, Inhabited

instance : Coe Category Kind := ⟨Kind.category⟩

namespace Kind

/-- Literal words and marks have no name; everything else is named. -/
def isNamed : Kind → Bool
  | text _ => false
  | _ => true

def name : Kind → String
  | category c => c.name
  | text s => s
  | error => "ERROR"

end Kind

namespace Grammar

/-- A named level of binding strength. Levels are compared only through the orderings that a
grammar lists. -/
inductive Tier where
  | member | templateCall | call | unaryVoid | binaryExp | binaryTimes | binaryPlus | binaryShift
  | binaryCompare | binaryRelation | binaryEquality | bitwiseAnd | bitwiseXor | bitwiseOr
  | logicalAnd | logicalOr | ternary | assign | construct | declare | literal | object
  | instantiation | unary | binary | heritage
deriving DecidableEq, Repr

/-- How strongly a phrase holds together. -/
inductive Precedence where
  | none
  | level (n : Int)
  | tier (t : Tier)
deriving DecidableEq, Repr, Inhabited

/-- Which side groups first among equals. -/
inductive Associativity where
  | left
  | right
deriving DecidableEq, Repr

inductive Rule where
  | blank
  | text (s : String)
  | ref (c : Category)
  | follow (first second : Rule)
  | either (first second : Rule)
  | repeated (r : Rule)
  | rank (p : Precedence) (a : Option Associativity) (r : Rule)
  | dynamic (n : Int) (r : Rule)
  | role (f : Role) (r : Rule)
  | rename (k : Kind) (r : Rule)
deriving DecidableEq, Repr, Inhabited

instance : Coe String Rule := ⟨Rule.text⟩

instance : Coe Category Rule := ⟨Rule.ref⟩

namespace Rule

/-- One part after the other. -/
def seq : List Rule → Rule
  | [] => blank
  | [r] => r
  | r :: rs => follow r (seq rs)

/-- One of the alternatives. -/
def alt : List Rule → Rule
  | [] => blank
  | [r] => r
  | r :: rs => either r (alt rs)

def opt (r : Rule) : Rule := either r blank

/-- Any number of times, also none. -/
def many (r : Rule) : Rule := either (repeated r) blank

/-- At least once, with marks in between. -/
def separated (mark r : Rule) : Rule := follow r (many (follow mark r))

/-- A list with commas, not empty. -/
def commas (r : Rule) : Rule := separated "," r

/-- A list with commas, perhaps empty. -/
def commasOpt (r : Rule) : Rule := opt (commas r)

def tier (t : Tier) (r : Rule) : Rule := rank (.tier t) none r

def level (n : Int) (r : Rule) : Rule := rank (.level n) none r

def leftTier (t : Tier) (r : Rule) : Rule := rank (.tier t) (some .left) r

def rightTier (t : Tier) (r : Rule) : Rule := rank (.tier t) (some .right) r

def left (r : Rule) : Rule := rank (.level 0) (some .left) r

def right (r : Rule) : Rule := rank (.level 0) (some .right) r

def leftLevel (n : Int) (r : Rule) : Rule := rank (.level n) (some .left) r

end Rule

/-- An entry of a precedence ordering: a level, or all phrases of a category. -/
inductive Rung where
  | tier (t : Tier)
  | category (c : Category)
deriving DecidableEq, Repr

instance : Coe Tier Rung := ⟨Rung.tier⟩

instance : Coe Category Rung := ⟨Rung.category⟩

end Grammar

end CodeSurvey
