import CodeSurvey.Lexis.Scanner
import CodeSurvey.Automaton.State
import CodeSurvey.Syntax.Source

namespace CodeSurvey.Lexis

open Category Grammar Automaton

structure Vocabulary where
  typed : Bool
  terminals : Array Terminal
  /-- Words that are reserved only where the grammar has a use for them. -/
  words : List (List Char × Nat)
  /-- Names and the words that look like names. -/
  wordMask : TerminalSet
  marks : List (List Char × Nat)
  lexemes : List (Recogniser × Nat)
  extras : TerminalSet

namespace Vocabulary

variable (v : Vocabulary)

def numberOf (t : Terminal) : Nat := (v.terminals.idxOf? t).getD v.terminals.size

def allows (valid : TerminalSet) (c : Category) : Bool := valid.testBit (v.numberOf (.lexeme c))

def allowed (valid : TerminalSet) : Allowed where
  templateChars := v.allows valid templateChars
  automaticSemicolon := v.allows valid automaticSemicolon
  signatureSemicolon := v.allows valid signatureSemicolon
  ternaryMark := v.allows valid ternaryMark
  markupComment := v.allows valid htmlComment
  jsxText := v.allows valid jsxText
  logicalOr := valid.testBit (v.numberOf (.text "||"))
  insideText := v.allows valid escapeSequence || v.allows valid regexPattern

end Vocabulary

/-- Words that are texts like any other although they look like names: the grammar has them where
no name can stand and the flags of a regular expression can. -/
def plainWords (typed : Bool) : List String :=
  ["in", "instanceof"] ++ if typed then ["as", "satisfies", "implements"] else []

def Vocabulary.ofSymbols (typed : Bool) (symbols : Symbols) : Vocabulary :=
  let numbered := symbols.terminals.toList.mapIdx fun i t => (t, i)
  let texts := numbered.filterMap fun (t, i) => match t with
    | .text s => some (s, i)
    | _ => none
  let isWord := fun s : String =>
    s.toList.all isNameChar && !s.isEmpty && !(plainWords typed).contains s
  let words := texts.filter (isWord ·.1)
  let numberOf := fun t => (symbols.terminals.idxOf? t).getD 0
  { typed, terminals := symbols.terminals
    words := words.map fun (s, i) => (s.toList, i)
    wordMask := words.foldl (fun mask w => mask ||| (1 <<< w.2))
      (1 <<< numberOf (.lexeme identifier))
    marks := (texts.filter (!isWord ·.1)).map fun (s, i) => (s.toList, i)
    lexemes := numbered.filterMap fun (t, i) => match t with
      | .lexeme c => (recogniser c).map (·, i)
      | _ => none
    extras := Definition.extras.foldl (fun mask c => mask ||| (1 <<< numberOf (.lexeme c))) 0 }

/-- The length of the common beginning of two texts. -/
def agreement : List Char → List Char → Nat
  | a :: as, b :: bs => if a = b then agreement as bs + 1 else 0
  | _, _ => 0

structure Choice where
  best : Option Match
  reach : Nat

def Choice.offer (c : Choice) (found : Option Match) (reach : Nat) : Choice where
  best := match c.best, found with
    | some old, some new => if new.beats old then some new else some old
    | none, new => new
    | old, none => old
  reach := max c.reach reach

def Vocabulary.choose (v : Vocabulary) (valid : TerminalSet) (source : Source) (place : Nat) :
    Choice :=
  let here : Cursor := ⟨source.dropTo place, place⟩
  let behind := here.skipWhile isBlank
  let nameNumber := v.numberOf (.lexeme identifier)
  let valid := if valid &&& v.wordMask = 0 then valid else valid ||| (1 <<< nameNumber)
  let atEnd : Choice := { reach := behind.offset
                          best := if behind.rest.isEmpty && valid.testBit 0
                            then some ⟨0, behind.offset, behind.offset, 0, 0⟩ else none }
  let marked := v.marks.foldl (fun choice (s, i) =>
    if valid.testBit i then
      let n := agreement s behind.rest
      choice.offer (if n = s.length then
        some ⟨i, behind.offset, behind.offset + n, 0, 2⟩ else none) (behind.offset + n)
    else choice) atEnd
  v.lexemes.foldl (fun choice (r, i) =>
    if valid.testBit i then
      let cursor := if r.immediate then here else behind
      let reading := r.pattern.read cursor.rest
      choice.offer (reading.longest.map fun n =>
        ⟨i, cursor.offset, cursor.offset + n, r.precedence, if r.immediate then 1 else 0⟩)
        (cursor.offset + reading.reach)
    else choice) marked

/-- A token: its terminal (none if the text cannot be read), the place where the blanks before it
begin, and its extent. -/
structure Token where
  terminal : Option Nat
  origin : Nat
  start : Nat
  stop : Nat
  /-- Whether it is a reserved word, which could also be a name. -/
  isWord : Bool := false
deriving DecidableEq, Repr, Inhabited

/-- Tells a reserved word from a name by what is allowed. -/
def Vocabulary.tokenOf (v : Vocabulary) (valid : TerminalSet) (source : Source) (origin : Nat)
    (m : Match) : Token :=
  if m.terminal = v.numberOf (.lexeme identifier) then
    let text := source.slice m.start m.stop
    match v.words.find? (·.1 == text) with
    | some (_, word) =>
      if valid.testBit word then ⟨some word, origin, m.start, m.stop, true⟩
      else ⟨some m.terminal, origin, m.start, m.stop, true⟩
    | none => ⟨some m.terminal, origin, m.start, m.stop, false⟩
  else ⟨some m.terminal, origin, m.start, m.stop, false⟩

/-- Looks for the end of an unreadable stretch: the first place from which something can be read,
or the end of the text. -/
def Vocabulary.skipUnreadable (v : Vocabulary) (recovering : TerminalSet) (source : Source) :
    (fuel place stop : Nat) → Nat
  | 0, _, stop => stop
  | fuel + 1, place, stop =>
    let choice := v.choose recovering source place
    match choice.best with
    | some _ => stop
    | none =>
      if choice.reach = stop then
        if source.size ≤ stop then stop
        else v.skipUnreadable recovering source fuel (stop + 1) (stop + 1)
      else v.skipUnreadable recovering source fuel choice.reach choice.reach

/-- The next token. `valid` are the terminals on which the state acts, `recovering` those that are
read when none of them is found. A token without text needs progress since the last error. -/
def Vocabulary.token (v : Vocabulary) (valid recovering : TerminalSet) (inError progressed : Bool)
    (source : Source) (origin : Nat) : Token :=
  let scanned := (scan v.typed (v.allowed valid) (source.dropTo origin)).filter fun f =>
    f.stop > 0 || (!inError && progressed)
  match scanned with
  | some f => ⟨some (v.numberOf (.lexeme f.lexeme)), origin, origin + f.start, origin + f.stop,
      false⟩
  | none =>
    match (v.choose valid source origin).best with
    | some m => v.tokenOf valid source origin m
    | none =>
      let choice := v.choose recovering source origin
      match choice.best with
      | some m => v.tokenOf valid source origin m
      | none =>
        let start := ((⟨source.dropTo origin, origin⟩ : Cursor).skipWhile isBlank).offset
        let stop := if choice.reach = start then min (start + 1) source.size else choice.reach
        ⟨none, origin, start,
          v.skipUnreadable recovering source (source.size + 1 - stop) stop stop, false⟩

end CodeSurvey.Lexis
