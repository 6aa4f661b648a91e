import CodeSurvey.Grammar.Rule
import CodeSurvey.Syntax.Source

namespace CodeSurvey

/-- All about a node but its children. -/
structure Mark where
  kind : Kind
  role : Option Role := none
  missing : Bool := false
  /-- Whether the text that the node covers has an error. -/
  flawed : Bool := false
  start : Position
  stop : Position
deriving DecidableEq, Repr, Inhabited

inductive Node where
  | mk (mark : Mark) (children : List Node)
deriving Inhabited

namespace Node

def mark : Node → Mark
  | mk m _ => m

def children : Node → List Node
  | mk _ c => c

variable (n : Node)

def kind : Kind := n.mark.kind

def isA (c : Category) : Bool := n.kind = .category c

def isAny (cs : List Category) : Bool := cs.any n.isA

/-- Whether the node is a literal word or mark. -/
def isText (s : String) : Bool := n.kind = .text s

def isNamed : Bool := n.kind.isNamed

def isError : Bool := n.kind = .error || n.mark.missing

def namedChildren : List Node := n.children.filter (·.isNamed)

def child? (f : Role) : Option Node := n.children.find? (·.mark.role = some f)

def text (s : Source) : String :=
  String.ofList (s.slice n.mark.start.offset n.mark.stop.offset)

/-- How many lines a node stands on, as a word of 32 bits. -/
def lineCount : Nat := (UInt32.ofNat n.mark.stop.row - UInt32.ofNat n.mark.start.row + 1).toNat

mutual

/-- A node and all below it, in the order of the text. -/
def preorder : Node → List Node
  | mk m children => mk m children :: preorderAll children

@[inherit_doc preorder]
def preorderAll : List Node → List Node
  | [] => []
  | n :: rest => preorder n ++ preorderAll rest

end

mutual

/-- The first error in the order of the text. Nodes that are not flawed are not searched. -/
def firstError? : Node → Option Node
  | mk m children =>
    if (mk m children).isError then some (mk m children)
    else if m.flawed then firstErrorIn? children
    else none

@[inherit_doc firstError?]
def firstErrorIn? : List Node → Option Node
  | [] => none
  | n :: rest => firstError? n <|> firstErrorIn? rest

end

end Node

end CodeSurvey
