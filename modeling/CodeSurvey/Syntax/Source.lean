namespace CodeSurvey

/-- A place in a text: the characters and the bytes before it, its row, and the bytes before it in
the row. -/
structure Position where
  offset : Nat
  byte : Nat
  row : Nat
  column : Nat
deriving DecidableEq, Repr, Inhabited

namespace Position

def zero : Position := ⟨0, 0, 0, 0⟩

def after (p : Position) (c : Char) : Position :=
  if c = '\n' then ⟨p.offset + 1, p.byte + 1, p.row + 1, 0⟩
  else ⟨p.offset + 1, p.byte + c.utf8Size, p.row, p.column + c.utf8Size⟩

end Position

/-- A text prepared for reading: what follows each character, and where that is. -/
structure Source where
  chars : List Char
  suffixes : Array (List Char)
  positions : Array Position

namespace Source

/-- Adds a text and all that is left of it, character by character. -/
def addSuffixes (all : Array (List Char)) : List Char → Array (List Char)
  | [] => all.push []
  | c :: rest => addSuffixes (all.push (c :: rest)) rest

def ofChars (chars : List Char) : Source where
  chars
  suffixes := addSuffixes #[] chars
  positions := (chars.foldl (fun (all, p) c => (all.push (p.after c), p.after c))
    (#[Position.zero], Position.zero)).1

def ofString (s : String) : Source := ofChars s.toList

variable (s : Source)

def size : Nat := s.suffixes.size - 1

/-- What follows a place, given by the number of characters before it. -/
def dropTo (n : Nat) : List Char := s.suffixes.getD n []

def positionAt (n : Nat) : Position := s.positions.getD n (s.positions.back?.getD .zero)

/-- The text between two places. -/
def slice (start stop : Nat) : List Char := (s.dropTo start).take (stop - start)

end Source

end CodeSurvey
