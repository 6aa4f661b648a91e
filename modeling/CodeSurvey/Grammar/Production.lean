import CodeSurvey.Grammar.Definition

namespace CodeSurvey.Grammar

/-- One symbol of a production, with the binding strength after it and what it is called there. -/
structure Step where
  symbol : Nat
  precedence : Precedence := .none
  associativity : Option Associativity := none
  newKind : Option Kind := none
  role : Option Role := none
deriving DecidableEq, Repr, Inhabited

/-- One way to make up a phrase. -/
structure Spelling where
  steps : List Step := []
  dynamic : Int := 0
deriving DecidableEq, Repr, Inhabited

/-- A spelling of a phrase. The phrase is given by its number among the phrases. -/
structure Production where
  phrase : Nat
  steps : Array Step
  dynamic : Int
deriving DecidableEq, Repr, Inhabited

/-- The larger of two dynamic precedences by size, the earlier one in a tie. -/
def Spelling.weigh (a b : Int) : Int := if b.natAbs > a.natAbs then b else a

def Spelling.append (a b : Spelling) : Spelling :=
  ⟨a.steps ++ b.steps, weigh a.dynamic b.dynamic⟩

/-- One spelling after another, in all ways. -/
def Spelling.product (xs ys : List Spelling) : List Spelling :=
  xs.flatMap fun x => ys.map x.append

/-- What surrounds a part of a rule and passes to the symbols inside. -/
structure Surrounding where
  precedence : Precedence := .none
  associativity : Option Associativity := none
  newKind : Option Kind := none
  role : Option Role := none

/-- A rule whose repetitions and mentions are already symbols. -/
inductive Body where
  | blank
  | symbol (n : Nat)
  | follow (first second : Body)
  | either (first second : Body)
  | rank (p : Precedence) (a : Option Associativity) (b : Body)
  | dynamic (n : Int) (b : Body)
  | role (f : Role) (b : Body)
  | rename (k : Kind) (b : Body)
deriving DecidableEq, Repr, Inhabited

private def onLast (f : Step → Step) : List Step → List Step
  | [] => []
  | [s] => [f s]
  | s :: r => s :: onLast f r

/-- All ways to spell a body out, the first alternatives first. A binding strength given to a part
holds between its symbols, and after its last one only at the end of the whole rule. -/
def Body.spellings (around : Surrounding) (atEnd : Bool) : Body → List Spelling
  | blank => [{}]
  | symbol n => [{ steps := [⟨n, around.precedence, around.associativity, around.newKind,
      around.role⟩] }]
  | follow a b => Spelling.product (a.spellings around false) (b.spellings around atEnd)
  | either a b => a.spellings around atEnd ++ b.spellings around atEnd
  | rank p a b =>
    let inner := { around with
      precedence := if p = .none then around.precedence else p
      associativity := a <|> around.associativity }
    (b.spellings inner atEnd).map fun s =>
      if atEnd then s else { s with steps := onLast (fun step => { step with
        precedence := if p = .none then step.precedence else around.precedence
        associativity := if a.isNone then step.associativity else around.associativity }) s.steps }
  | dynamic n b => (b.spellings around atEnd).map fun s =>
    { s with dynamic := Spelling.weigh n s.dynamic }
  | role f b => b.spellings { around with role := some f } atEnd
  | rename k b => b.spellings { around with newKind := some k } atEnd

/-- The terminals of a rule in the order in which they are mentioned, but for lexemes that have a
place of their own. -/
def Rule.terminals (d : Definition) : Rule → List Terminal
  | blank => []
  | text s => [.text s]
  | ref c => if d.isPhrase c || d.isPlaced c then [] else [d.terminalOf c]
  | follow a b => a.terminals d ++ b.terminals d
  | either a b => a.terminals d ++ b.terminals d
  | repeated r => r.terminals d
  | rank _ _ r => r.terminals d
  | dynamic _ r => r.terminals d
  | role _ r => r.terminals d
  | rename _ r => r.terminals d

structure Symbols where
  terminals : Array Terminal
  phrases : Array Category
  /-- Phrases in the grammar's own order, then one more for each distinct repetition. -/
  repeatBase : Nat

def Symbols.ofTerminal (s : Symbols) (t : Terminal) : Nat := (s.terminals.idxOf? t).getD 0

/-- Replaces mentions by symbols; each distinct repetition becomes a phrase of its own. -/
def Rule.body (d : Definition) (s : Symbols) :
    Rule → StateM (Array Body) Body
  | blank => pure .blank
  | text t => pure (.symbol (s.ofTerminal (.text t)))
  | ref c => pure <| .symbol <|
    match s.phrases.idxOf? c with
    | some i => s.terminals.size + i
    | none => s.ofTerminal (d.terminalOf c)
  | follow a b => return .follow (← a.body d s) (← b.body d s)
  | either a b => return .either (← a.body d s) (← b.body d s)
  | repeated r => do
    let b ← r.body d s
    let known ← get
    match known.idxOf? b with
    | some i => return .symbol (s.repeatBase + i)
    | none => set (known.push b); return .symbol (s.repeatBase + known.size)
  | rank p a r => return .rank p a (← r.body d s)
  | dynamic n r => return .dynamic n (← r.body d s)
  | role f r => return .role f (← r.body d s)
  | rename k r => return .rename k (← r.body d s)

structure Productions where
  definition : Definition
  symbols : Symbols
  phraseCount : Nat
  all : Array Production

def Step.replace (step : Step) (s : Spelling) : List Step :=
  onLast (fun last => { last with
      precedence := if last.precedence = .none then step.precedence else last.precedence
      associativity := last.associativity <|> step.associativity }) <|
    s.steps.map fun inner => { inner with
      newKind := step.newKind <|> inner.newKind
      role := step.role <|> inner.role }

/-- Puts the spellings of inlined phrases in place of a step, as deep as they nest. -/
def Step.inlineAll (spellingsOf : Nat → Option (List Spelling)) : Nat → Step → List Spelling
  | 0, step => [{ steps := [step] }]
  | depth + 1, step =>
    match spellingsOf step.symbol with
    | none => [{ steps := [step] }]
    | some options => options.flatMap fun s =>
      (step.replace s).foldr
        (fun inner rest => Spelling.product (inner.inlineAll spellingsOf depth) rest)
        [{ dynamic := s.dynamic }]

def Spelling.inlineAll (spellingsOf : Nat → Option (List Spelling)) (depth : Nat) (s : Spelling) :
    List Spelling :=
  Spelling.product [{ dynamic := s.dynamic }] <|
    s.steps.foldr (fun step rest => Spelling.product (step.inlineAll spellingsOf depth) rest) [{}]

/-- The symbols of a grammar: the end of the text, then identifiers, then what rules mention. -/
def Definition.symbols (d : Definition) : Symbols :=
  let mentioned := d.rules.flatMap fun (c, rule) =>
    rule.terminals d ++ (d.placedAfter c).map d.terminalOf
  let terminals := (Terminal.finish :: .lexeme .identifier ::
    (mentioned ++ d.contextual.map .lexeme)).eraseDups.toArray
  let phrases := (d.rules.map (·.1)).toArray
  { terminals, phrases, repeatBase := terminals.size + phrases.size }

/-- A repetition is once, or two repetitions in a row. -/
def Body.repetition (self : Nat) (content : Body) : Body :=
  .either (.follow (.symbol self) (.symbol self)) content

def Definition.bodies (d : Definition) (symbols : Symbols) : List Body × Array Body :=
  let all : StateM (Array Body) (List Body) := d.rules.mapM (·.2.body d symbols)
  all.run #[]

def Definition.productions (d : Definition) : Productions :=
  let symbols := d.symbols
  let (bodies, repeats) := d.bodies symbols
  let repetitions := repeats.toList.mapIdx fun i b => Body.repetition (symbols.repeatBase + i) b
  let spelled := ((bodies ++ repetitions).map (·.spellings {} true)).toArray
  let isInlined := symbols.phrases.map d.inlined.contains
  let spellingsOf := fun symbol =>
    let i := symbol - symbols.terminals.size
    if symbols.terminals.size ≤ symbol ∧ isInlined.getD i false then spelled[i]? else none
  let phrasesOf := fun (i : Nat) (options : List Spelling) =>
    (options.flatMap (·.inlineAll spellingsOf d.inlined.length)).eraseDups.map fun s =>
      (⟨i, s.steps.toArray, s.dynamic⟩ : Production)
  { definition := d, symbols, phraseCount := spelled.size,
    all := (spelled.toList.mapIdx phrasesOf).flatten.toArray }

end CodeSurvey.Grammar
