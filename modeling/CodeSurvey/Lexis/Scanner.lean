import CodeSurvey.Lexis.Lexeme

namespace CodeSurvey.Lexis

open Category

/-- A place in a text: what is left, and how much came before. -/
structure Cursor where
  rest : List Char
  offset : Nat
deriving Repr, Inhabited

namespace Cursor

/-- The next character; NUL at the end. -/
def peek (c : Cursor) : Char := c.rest.headD '\x00'

def advance (c : Cursor) : Cursor :=
  match c.rest with
  | [] => c
  | _ :: rest => ⟨rest, c.offset + 1⟩

def skipWhile (accepts : Char → Bool) (c : Cursor) : Cursor := go c.rest c.offset
where
  go : List Char → Nat → Cursor
    | [], n => ⟨[], n⟩
    | x :: rest, n => if accepts x then go rest (n + 1) else ⟨x :: rest, n⟩

end Cursor

/-- White space of the ASCII set. -/
def isAsciiBlank (c : Char) : Bool := c == ' ' || ('\t' ≤ c && c ≤ '\r')

def isWideLineEnd (c : Char) : Bool := c == '\u2028' || c == '\u2029'

/-- The text of a template up to its end, a substitution or an escape. There is none if nothing
comes before these, nor if the template does not end. -/
def templateText (n : Nat) : List Char → Option Nat
  | [] => none
  | '`' :: _ => if n = 0 then none else some n
  | '\\' :: _ => if n = 0 then none else some n
  | '$' :: '\x7b' :: _ => if n = 0 then none else some n
  | c :: rest => if c = '\x00' then none else templateText (n + 1) rest

def markupText (seen atLineEnd : Bool) (n : Nat) : List Char → Bool × Cursor
  | [] => (seen, ⟨[], n⟩)
  | c :: rest =>
    if "<>\x7b\x7d&\x00".toList.contains c then (seen, ⟨c :: rest, n⟩)
    else if c = '\n' then markupText seen true (n + 1) rest
    else
      let atLineEnd := atLineEnd && isAsciiBlank c
      markupText (seen || !atLineEnd) atLineEnd (n + 1) rest

/-- What the blanks and comments at a place say about a semicolon there. -/
inductive Verdict where
  /-- None can stand here. -/
  | refused
  /-- A comment on one line, which does not matter. -/
  | sameLine
  | allowed
deriving DecidableEq, Repr

/-- Where a reader of blanks and comments is. -/
inductive GapPlace where
  | between
  | slash
  | lineComment
  | blockComment
  | star
deriving DecidableEq, Repr

/-- The end of a stretch of blanks and comments. -/
structure Gap where
  verdict : Verdict
  commented : Bool
  cursor : Cursor

/-- Reads blanks and comments. With `stopAfterBlock` it ends behind the first block comment, unless
a slash follows. -/
def readGap (wide stopAfterBlock : Bool) :
    GapPlace → (lineEnded commented : Bool) → List Char → Nat → Gap
  | .between, l, m, c :: rest, n =>
    if isAsciiBlank c then readGap wide stopAfterBlock .between l m rest (n + 1)
    else if c = '/' then readGap wide stopAfterBlock .slash l m rest (n + 1)
    else ⟨.allowed, m, ⟨c :: rest, n⟩⟩
  | .between, _, m, [], n => ⟨.allowed, m, ⟨[], n⟩⟩
  | .slash, l, m, c :: rest, n =>
    if c = '/' then readGap wide stopAfterBlock .lineComment l true rest (n + 1)
    else if c = '*' then readGap wide stopAfterBlock .blockComment l true rest (n + 1)
    else ⟨.refused, m, ⟨c :: rest, n⟩⟩
  | .slash, _, m, [], n => ⟨.refused, m, ⟨[], n⟩⟩
  | .lineComment, l, m, c :: rest, n =>
    if c = '\n' then readGap wide stopAfterBlock .between l m rest (n + 1)
    else if c = '\x00' || (wide && isWideLineEnd c) then ⟨.allowed, m, ⟨c :: rest, n⟩⟩
    else readGap wide stopAfterBlock .lineComment l m rest (n + 1)
  | .lineComment, _, m, [], n => ⟨.allowed, m, ⟨[], n⟩⟩
  | .blockComment, l, m, c :: rest, n =>
    if c = '\x00' then ⟨.allowed, m, ⟨c :: rest, n⟩⟩
    else if c = '*' then readGap wide stopAfterBlock .star l m rest (n + 1)
    else readGap wide stopAfterBlock .blockComment (l || c = '\n' || isWideLineEnd c) m rest (n + 1)
  | .blockComment, _, m, [], n => ⟨.allowed, m, ⟨[], n⟩⟩
  | .star, l, m, c :: rest, n =>
    if c = '/' then
      if stopAfterBlock && rest.head? ≠ some '/' then
        ⟨if l then .allowed else .sameLine, m, ⟨rest, n + 1⟩⟩
      else readGap wide stopAfterBlock .between l m rest (n + 1)
    else if c = '\x00' then ⟨.allowed, m, ⟨c :: rest, n⟩⟩
    else if c = '*' then readGap wide stopAfterBlock .star l m rest (n + 1)
    else readGap wide stopAfterBlock .blockComment (l || c = '\n' || isWideLineEnd c) m rest (n + 1)
  | .star, _, m, [], n => ⟨.allowed, m, ⟨[], n⟩⟩

/-- Whether a line that begins with these characters goes on with the one before by the word `in`
or `instanceof`. -/
def continuesByWord : List Char → Bool
  | 'i' :: 'n' :: rest =>
    match rest with
    | c :: _ =>
      if !isLetter c then true
      else "stanceof".toList.isPrefixOf rest && !isLetter ((rest.drop 8).headD '\x00')
    | [] => true
  | _ => false

/-- What the surroundings allow at a place. -/
structure Allowed where
  templateChars : Bool
  automaticSemicolon : Bool
  signatureSemicolon : Bool
  ternaryMark : Bool
  markupComment : Bool
  jsxText : Bool
  /-- A binary operator may follow, so that an expression has ended here. -/
  logicalOr : Bool
  /-- A string or regular expression has begun. -/
  insideText : Bool

/-- Whether a semicolon may be left out before a new line that begins here. -/
def endsBefore (typed : Bool) (allowed : Allowed) (c : Cursor) : Bool :=
  let next := c.advance.peek
  match c.peek with
  | '+' => next = '+'
  | '-' => next = '-'
  | '!' => next ≠ '='
  | 'i' => !continuesByWord c.rest
  | '.' => !typed && isDigit next
  | '\x7b' => !(typed && allowed.signatureSemicolon)
  | '(' => typed && !allowed.logicalOr
  | '[' => typed && !allowed.logicalOr
  | x => !"`,:;*%><=?^|&/".toList.contains x

/-- The outcome of looking for a place where a semicolon is left out. -/
structure SemicolonSearch where
  found : Bool
  commented : Bool
  cursor : Cursor

/-- Looks for a semicolon that is left out: at the end of the text, before a closing brace, or at
the end of a line that the next line does not continue. -/
def searchSemicolon (typed : Bool) (allowed : Allowed) (text : List Char) : SemicolonSearch :=
  go text.length false ⟨text, 0⟩
where
  newLine (commented : Bool) (c : Cursor) : SemicolonSearch :=
    let gap := readGap (!typed) false .between false commented c.rest c.offset
    ⟨gap.verdict ≠ .refused && endsBefore typed allowed gap.cursor, gap.commented, gap.cursor⟩
  atPlace (commented : Bool) (c : Cursor) (next : Cursor → SemicolonSearch) : SemicolonSearch :=
    if c.peek = '}' then
      if typed then
        let behind := c.advance.skipWhile isAsciiBlank
        ⟨behind.peek ≠ ':' || allowed.logicalOr, commented, behind⟩
      else ⟨true, commented, c⟩
    else if c.peek = '\n' || (!typed && isWideLineEnd c.peek) then newLine commented c.advance
    else if isAsciiBlank c.peek then next c.advance
    else ⟨false, commented, c⟩
  go : Nat → Bool → Cursor → SemicolonSearch
    | 0, commented, c => ⟨c.peek = '\x00', commented, c⟩
    | fuel + 1, commented, c =>
      if c.peek = '\x00' then ⟨true, commented, c⟩
      else if c.peek = '/' && !typed then
        let gap := readGap true true .between false commented c.rest c.offset
        if gap.verdict = .refused then ⟨false, gap.commented, gap.cursor⟩
        else if gap.verdict = .allowed && !allowed.logicalOr && gap.cursor.peek ≠ ','
            && gap.cursor.peek ≠ '=' then ⟨true, gap.commented, gap.cursor⟩
        else atPlace gap.commented gap.cursor (go fuel gap.commented)
      else atPlace commented c (go fuel commented)

structure Found where
  lexeme : Category
  start : Nat
  stop : Nat
deriving Repr, DecidableEq

/-- The question mark of a condition. It is none before another one or before a member, and in
typed scripts none where something optional ends. -/
def ternaryMarkAt (typed : Bool) (c : Cursor) : Option Found :=
  let c := c.skipWhile isAsciiBlank
  if c.peek ≠ '?' then none
  else
    let behind := c.advance
    let found := some ⟨ternaryMark, c.offset, behind.offset⟩
    if behind.peek = '?' || (typed && behind.peek = '.') then none
    else
      let next := if typed then behind.skipWhile isAsciiBlank else behind
      if typed && ":),".toList.contains next.peek then none
      else if next.peek = '.' then if isDigit next.advance.peek then found else none
      else found

def markupCommentAt (start : Nat) (c : Cursor) : Option Found :=
  let opened := if "<!--".toList.isPrefixOf c.rest then some 4
    else if "-->".toList.isPrefixOf c.rest then some 3 else none
  opened.map fun n =>
    let behind : Cursor := ⟨c.rest.drop n, c.offset + n⟩
    ⟨htmlComment, start,
      (behind.skipWhile fun x => x ≠ '\x00' && x ≠ '\n' && !isWideLineEnd x).offset⟩

/-- Scans for the lexemes that depend on their surroundings. -/
def scan (typed : Bool) (allowed : Allowed) (text : List Char) : Option Found :=
  if allowed.templateChars then
    if allowed.automaticSemicolon then none
    else (templateText 0 text).map fun n => ⟨templateChars, 0, n⟩
  else
    let (isText, behind) := if allowed.jsxText then markupText false false 0 text
      else (false, ⟨text, 0⟩)
    if isText then some ⟨jsxText, 0, behind.offset⟩
    else if allowed.automaticSemicolon || (typed && allowed.signatureSemicolon) then
      let search := searchSemicolon typed allowed behind.rest
      if search.found then some ⟨automaticSemicolon, 0, 0⟩
      else if !search.commented && allowed.ternaryMark && search.cursor.peek = '?' then
        ternaryMarkAt typed search.cursor
      else none
    else if allowed.ternaryMark then ternaryMarkAt typed behind
    else if allowed.markupComment && !allowed.logicalOr && !allowed.insideText then
      let c := behind.skipWhile fun x => isAsciiBlank x || isWideLineEnd x
      markupCommentAt (if behind.offset = 0 then c.offset else 0) c
    else none

end CodeSurvey.Lexis
