import CodeSurvey.Decimal.Shortest
import CodeSurvey.Json.Value

namespace CodeSurvey

namespace JsonPrinter

def hexDigit (n : Nat) : Char := (Nat.toDigits 16 n).headD '0'

def escape (c : Char) : List Char :=
  match c with
  | '"' => ['\\', '"']
  | '\\' => ['\\', '\\']
  | '\x08' => ['\\', 'b']
  | '\x0c' => ['\\', 'f']
  | '\n' => ['\\', 'n']
  | '\r' => ['\\', 'r']
  | '\t' => ['\\', 't']
  | c =>
    if c.toNat < 0x20 then ['\\', 'u', '0', '0', hexDigit (c.toNat / 16), hexDigit (c.toNat % 16)]
    else [c]

def quote (s : String) : String := String.ofList ('"' :: s.toList.flatMap escape ++ ['"'])

end JsonPrinter

namespace JsonNumber

def text : JsonNumber → String
  | integer n => toString n
  | double x => x.text

end JsonNumber

namespace Json

open JsonPrinter

mutual

/-- The text of a value without space. -/
def compact : Json → String
  | null => "null"
  | bool b => if b then "true" else "false"
  | number n => n.text
  | string s => quote s
  | array items => "[" ++ ",".intercalate (compactItems items) ++ "]"
  | object members => "\x7b" ++ ",".intercalate (compactMembers members) ++ "\x7d"

@[inherit_doc compact]
def compactItems : List Json → List String
  | [] => []
  | j :: rest => compact j :: compactItems rest

@[inherit_doc compact]
def compactMembers : List (String × Json) → List String
  | [] => []
  | (key, j) :: rest => (quote key ++ ":" ++ compact j) :: compactMembers rest

end

def newLine (level : Nat) : String := "\n".pushn ' ' (2 * level)

def block (opening closing : String) (level : Nat) : List String → String
  | [] => opening ++ closing
  | parts =>
    let inner := newLine (level + 1)
    opening ++ inner ++ ("," ++ inner).intercalate parts ++ newLine level ++ closing

mutual

/-- The text of a value over several lines, within a number of levels. -/
def prettyAt (level : Nat) : Json → String
  | null => "null"
  | bool b => if b then "true" else "false"
  | number n => n.text
  | string s => quote s
  | array items => block "[" "]" level (prettyItems (level + 1) items)
  | object members => block "\x7b" "\x7d" level (prettyMembers (level + 1) members)

@[inherit_doc prettyAt]
def prettyItems (level : Nat) : List Json → List String
  | [] => []
  | j :: rest => prettyAt level j :: prettyItems level rest

@[inherit_doc prettyAt]
def prettyMembers (level : Nat) : List (String × Json) → List String
  | [] => []
  | (key, j) :: rest => (quote key ++ ": " ++ prettyAt level j) :: prettyMembers level rest

end

def pretty (j : Json) : String := prettyAt 0 j

end Json

end CodeSurvey
