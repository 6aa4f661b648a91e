import CodeSurvey.Grammar.TypeScript

namespace CodeSurvey

inductive Dialect where
  | javaScript
  | typeScript
  | tsx
deriving DecidableEq, Repr, Inhabited

namespace Grammar

open Category

/-- A smallest unit of text, as the rules see it. -/
inductive Terminal where
  | finish
  | text (s : String)
  | lexeme (c : Category)
deriving DecidableEq, Repr, Inhabited

structure Definition where
  rules : List (Category × Rule)
  words : List (Category × String)
  inlined : List Category
  hidden : List Category
  orderings : List (List Rung)
  /-- Lexemes with a place of their own in the order of symbols: after the rule of a phrase. -/
  placed : List (Category × List Category)
  /-- Lexemes that depend on what is around them; they come last. -/
  contextual : List Category

/-- Lexemes that may stand between any two others. -/
def Definition.extras : List Category := [comment, htmlComment]

def javaScript : Definition where
  rules := JavaScript.rules
  words := JavaScript.words
  inlined := JavaScript.inlined
  hidden := JavaScript.hidden
  orderings := JavaScript.orderings
  placed := JavaScript.placed
  contextual := [automaticSemicolon, templateChars, ternaryMark, htmlComment, jsxText]

def typeScript (markup : Bool) : Definition where
  rules := TypeScript.rules markup
  words := TypeScript.words
  inlined := TypeScript.inlined
  hidden := TypeScript.hidden
  orderings := TypeScript.orderings
  placed := JavaScript.placed
  contextual := javaScript.contextual ++ [signatureSemicolon, recoveryMark]

def ofDialect : Dialect → Definition
  | .javaScript => javaScript
  | .typeScript => typeScript false
  | .tsx => typeScript true

namespace Definition

variable (d : Definition)

def isPhrase (c : Category) : Bool := d.rules.any (·.1 = c)

def terminalOf (c : Category) : Terminal :=
  match d.words.find? (·.1 = c) with
  | some (_, s) => .text s
  | none => .lexeme c

def placedAfter (c : Category) : List Category :=
  ((d.placed.find? (·.1 = c)).map (·.2)).getD [] |>.filter (!d.isPhrase ·)

/-- Whether a lexeme has a place in the order of symbols apart from where it is mentioned. -/
def isPlaced (c : Category) : Bool := d.contextual.contains c || d.placed.any (·.2.contains c)

def kindOf : Terminal → Kind
  | .finish => .text ""
  | .lexeme c => c
  | .text s =>
    match d.words.find? (·.2 = s) with
    | some (c, _) => c
    | none => .text s

end Definition

end Grammar

end CodeSurvey
