import CodeSurvey.Lexis.Token

namespace CodeSurvey.Parsing

open Grammar Automaton Lexis

structure Language where
  table : Table
  vocabulary : Vocabulary
  automaton : Explored
  /-- Whether each symbol makes a node. -/
  visible : Array Bool
  recovering : TerminalSet

def silentLexemes : List Category := [.automaticSemicolon, .signatureSemicolon, .recoveryMark]

/-- Lexemes that are not looked for while nothing fits: they would match almost any text. -/
def greedyLexemes : List Category := [.regexPattern, .doubleQuotedFragment, .singleQuotedFragment,
  .doubleQuotedJsxFragment, .singleQuotedJsxFragment, .regexFlags]

namespace Language

def ofDefinition (typed : Bool) (d : Definition) : Language :=
  let productions := d.productions
  let table := Table.ofProductions productions
  let symbols := productions.symbols
  let vocabulary := Vocabulary.ofSymbols typed symbols
  let isVisible : Terminal → Bool
    | .finish => false
    | .text _ => true
    | .lexeme c => !silentLexemes.contains c
  let visible := symbols.terminals.map isVisible ++
    symbols.phrases.map (fun c => !d.hidden.contains c)
  let recovering := (symbols.terminals.toList.zipIdx.filter fun (t, _) => match t with
    | .lexeme c => !greedyLexemes.contains c
    | _ => true).foldl (fun mask (_, i) => mask ||| (1 <<< i)) 0
  { table, vocabulary, visible, recovering
    automaton := Explored.start table vocabulary.extras recovering }

variable (l : Language)

def isVisible (symbol : Nat) : Bool := l.visible.getD symbol false

/-- The kind of node that a symbol makes where it has no other name. -/
def kindOf (symbol : Nat) : Kind :=
  let symbols := l.table.productions.symbols
  match symbols.terminals[symbol]? with
  | some t => l.table.productions.definition.kindOf t
  | none => match symbols.phrases[symbol - symbols.terminals.size]? with
    | some c => c
    | none => .error

def production (n : Nat) : Production := l.table.productions.all.getD n default

def symbolOf (p : Production) : Nat := l.table.terminalCount + p.phrase

end Language

def javaScript : Language := .ofDefinition false (ofDialect .javaScript)

def typeScript : Language := .ofDefinition true (ofDialect .typeScript)

def tsx : Language := .ofDefinition true (ofDialect .tsx)

def Language.ofDialect : Dialect → Language
  | .javaScript => javaScript
  | .typeScript => typeScript
  | .tsx => tsx

end CodeSurvey.Parsing
