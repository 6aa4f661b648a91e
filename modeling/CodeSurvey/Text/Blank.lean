namespace CodeSurvey.Text

/-- The code points of all blanks: spaces of any width, and line and page ends. -/
def blanks : List Nat := [0x9, 0xA, 0xB, 0xC, 0xD, 0x20, 0x85, 0xA0, 0x1680, 0x2000, 0x2001, 0x2002,
  0x2003, 0x2004, 0x2005, 0x2006, 0x2007, 0x2008, 0x2009, 0x200A, 0x2028, 0x2029, 0x202F, 0x205F,
  0x3000]

def isBlank (c : Char) : Bool := blanks.contains c.toNat

def dropWhileEnd (p : Char → Bool) (cs : List Char) : List Char :=
  (cs.reverse.dropWhile p).reverse

/-- Drops characters of a kind on both sides. -/
def trimWhere (p : Char → Bool) (cs : List Char) : List Char :=
  dropWhileEnd p (cs.dropWhile p)

def trim (cs : List Char) : List Char := trimWhere isBlank cs

def extendFirst (c : Char) : List (List Char) → List (List Char)
  | [] => [[c]]
  | part :: parts => (c :: part) :: parts

def splitWhere (mark : Char → Bool) (cs : List Char) : List (List Char) :=
  cs.foldr (fun c parts => if mark c then [] :: parts else extendFirst c parts) [[]]

def words (cs : List Char) : List (List Char) :=
  (splitWhere isBlank cs).filter (!·.isEmpty)

def collapse (cs : List Char) : List Char := [' '].intercalate (words cs)

def lines (cs : List Char) : List (List Char) := splitWhere (· = '\n') cs

end CodeSurvey.Text
