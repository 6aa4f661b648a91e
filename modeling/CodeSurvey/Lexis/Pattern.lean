namespace CodeSurvey.Lexis

inductive Pattern where
  | never
  | empty
  | one (accepts : Char → Bool)
  | follow (first second : Pattern)
  | either (first second : Pattern)
  | star (p : Pattern)
deriving Inhabited

namespace Pattern

/-- Whether the empty text matches. -/
def nullable : Pattern → Bool
  | never => false
  | empty => true
  | one _ => false
  | follow p q => p.nullable && q.nullable
  | either p q => p.nullable || q.nullable
  | star _ => true

def isNever : Pattern → Bool
  | never => true
  | _ => false

/-- `follow`, without parts that cannot match and parts that need nothing. -/
def joined : Pattern → Pattern → Pattern
  | never, _ => never
  | _, never => never
  | empty, q => q
  | p, q => follow p q

/-- `either`, without parts that cannot match. -/
def merged : Pattern → Pattern → Pattern
  | never, q => q
  | p, never => p
  | p, q => either p q

/-- What remains to be matched after a character. -/
def after (c : Char) : Pattern → Pattern
  | never => never
  | empty => never
  | one accepts => if accepts c then empty else never
  | follow p q =>
    let here := joined (p.after c) q
    if p.nullable then merged here (q.after c) else here
  | either p q => merged (p.after c) (q.after c)
  | star p => joined (p.after c) (star p)

/-- The outcome of reading a text by a pattern: the length of the longest match, if there is one,
and how far the text could be the beginning of a match. -/
structure Reading where
  longest : Option Nat
  reach : Nat
deriving Repr, DecidableEq, Inhabited

/-- Reads on from a place, where a match may have been found already. -/
def readOn (n : Nat) (found : Option Nat) : Pattern → List Char → Reading
  | p, [] => ⟨if p.nullable then some n else found, n⟩
  | p, c :: rest =>
    let found := if p.nullable then some n else found
    let q := p.after c
    if q.isNever then ⟨found, n⟩ else q.readOn (n + 1) found rest

def read (p : Pattern) (text : List Char) : Reading := p.readOn 0 none text

def char (c : Char) : Pattern := one (· == c)

def chars (cs : List Char) : Pattern := one cs.contains

def range (lo hi : Char) : Pattern := one fun c => lo ≤ c && c ≤ hi

def text (s : String) : Pattern := s.toList.foldr (fun c p => joined (char c) p) empty

def seq (ps : List Pattern) : Pattern := ps.foldr joined empty

def alt (ps : List Pattern) : Pattern := ps.foldr merged never

def opt (p : Pattern) : Pattern := either p empty

/-- At least once. -/
def plus (p : Pattern) : Pattern := follow p (star p)

/-- Exactly so many times. -/
def times (p : Pattern) : Nat → Pattern
  | 0 => empty
  | n + 1 => joined p (p.times n)

/-- At most so many times. -/
def upTo (p : Pattern) : Nat → Pattern
  | 0 => empty
  | n + 1 => opt (joined p (p.upTo n))

end Pattern

end CodeSurvey.Lexis
