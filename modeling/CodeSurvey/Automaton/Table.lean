import CodeSurvey.Grammar.Production

namespace CodeSurvey.Automaton

open Grammar

abbrev TerminalSet := Nat

/-- A phrase that another can begin with: the terminals that can follow it there, and whether what
follows the whole can follow it too. -/
structure Opening where
  phrase : Nat
  follow : TerminalSet
  inherits : Bool
deriving Inhabited

/-- A grammar prepared for its automaton. An item is a production with a place in it; the items of
a production are numbered in a row. -/
structure Table where
  productions : Productions
  start : Array Nat
  production : Array Nat
  /-- The symbol that comes next in each item; 0 in a complete one. -/
  next : Array Nat
  first : Array TerminalSet
  /-- The productions that begin with each symbol. -/
  openers : Array (List Nat)
  /-- The phrases with which each phrase can begin, itself included. -/
  openings : Array (Thunk (List Opening))

namespace Table

variable (t : Table)

def terminalCount : Nat := t.productions.symbols.terminals.size

def symbolCount : Nat := t.terminalCount + t.productions.phraseCount

/-- The production that stands for the whole text: it ends only at the end. -/
def whole : Nat := t.productions.all.size - 1

def nextOf (item : Nat) : Nat := t.next.getD item 0

def firstOf (symbol : Nat) : TerminalSet := t.first.getD symbol 0

def productionOf (item : Nat) : Production :=
  t.productions.all.getD (t.production.getD item 0) default

/-- How many symbols come before the place of an item. -/
def place (item : Nat) : Nat := item - t.start.getD (t.production.getD item 0) 0

def categoryOf (phrase : Nat) : Option Category := t.productions.symbols.phrases[phrase]?

def isRepetition (phrase : Nat) : Bool :=
  t.productions.symbols.phrases.size ≤ phrase && phrase + 1 < t.productions.phraseCount

end Table

/-- Adds to each phrase's first terminals those of the symbols its productions begin with. -/
def widenFirst (terminalCount : Nat) (all : Array Production) (first : Array TerminalSet) :
    Array TerminalSet :=
  all.foldl (fun first p =>
    match p.steps[0]? with
    | none => first
    | some s => first.modify (terminalCount + p.phrase) (· ||| first.getD s.symbol 0)) first

def firstSets (terminalCount : Nat) (all : Array Production) :
    Nat → Array TerminalSet → Array TerminalSet
  | 0, first => first
  | rounds + 1, first =>
    let wider := widenFirst terminalCount all first
    if wider = first then first else firstSets terminalCount all rounds wider

def directOpenings (terminalCount : Nat) (first : Array TerminalSet) (all : List Production) :
    List Opening :=
  all.foldl (fun known p =>
    match p.steps[0]? with
    | none => known
    | some s =>
      if s.symbol < terminalCount then known
      else
        let phrase := s.symbol - terminalCount
        let (follow, inherits) := match p.steps[1]? with
          | some after => (first.getD after.symbol 0, false)
          | none => (0, true)
        if known.any (·.phrase = phrase) then
          known.map fun o => if o.phrase = phrase
            then ⟨phrase, o.follow ||| follow, o.inherits || inherits⟩ else o
        else ⟨phrase, follow, inherits⟩ :: known) []

/-- Follows openings of openings until nothing is added. `found` holds what is known of each
phrase, and `work` the phrases whose openings are still to be looked at. -/
def collectOpenings (direct : Array (List Opening)) :
    Nat → List Nat → Array (Option Opening) → Array (Option Opening)
  | 0, _, found => found
  | _, [], found => found
  | fuel + 1, phrase :: work, found =>
    match found.getD phrase none with
    | none => collectOpenings direct fuel work found
    | some here =>
      let (work, found) := (direct.getD phrase []).foldl (fun (work, found) o =>
        let old := (found.getD o.phrase none).getD ⟨o.phrase, 0, false⟩
        let new : Opening := ⟨o.phrase,
          old.follow ||| o.follow ||| (if o.inherits then here.follow else 0),
          old.inherits || (o.inherits && here.inherits)⟩
        if (found.getD o.phrase none).isSome && new.follow = old.follow
            && new.inherits = old.inherits then (work, found)
        else (o.phrase :: work, found.setIfInBounds o.phrase (some new))) (work, found)
      collectOpenings direct fuel work found

/-- Prepares a grammar. -/
def Table.ofProductions (given : Productions) : Table :=
  let n := given.symbols.terminals.size
  let whole : Production := ⟨given.phraseCount, #[{ symbol := n }], 0⟩
  let all := given.all.push whole
  let phraseCount := given.phraseCount + 1
  let (start, production, next) := all.foldl (fun (start, production, next) p =>
    (start.push next.size,
      p.steps.foldl (fun production _ => production.push start.size) (production.push start.size),
      (p.steps.foldl (fun next s => next.push s.symbol) next).push 0))
    ((#[], #[], #[]) : Array Nat × Array Nat × Array Nat)
  let terminals := (List.range n).map (1 <<< ·)
  let first := firstSets n all phraseCount
    (terminals ++ List.replicate phraseCount 0).toArray
  let openers := (List.range all.size).foldr (fun i openers =>
    match all[i]?.bind (·.steps[0]?) with
    | none => openers
    | some s => openers.modify s.symbol (i :: ·)) (Array.replicate (n + phraseCount) [])
  let byPhrase := all.foldr (fun p grouped => grouped.modify p.phrase (p :: ·))
    (Array.replicate phraseCount ([] : List Production))
  let direct := byPhrase.map (directOpenings n first)
  let openings := (List.range phraseCount).map fun phrase => Thunk.mk fun _ =>
    ((collectOpenings direct (phraseCount * phraseCount) [phrase]
      ((Array.replicate phraseCount none).setIfInBounds phrase
        (some ⟨phrase, 0, true⟩))).toList.filterMap id)
  { productions := { given with all, phraseCount }, start, production, next, first, openers,
    openings := openings.toArray }

end CodeSurvey.Automaton
