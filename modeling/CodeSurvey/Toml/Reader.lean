import CodeSurvey.Toml.Scalar
import CodeSurvey.Toml.Table

namespace CodeSurvey.Toml

def isSpace (c : Char) : Bool := c = ' ' || c = '\t'

def skipSpace (cs : List Char) : List Char := cs.dropWhile isSpace

/-- Whether a character may stand in comments and strings as it is. -/
def isPlain (c : Char) : Bool := c = '\t' || 0x20 ≤ c.toNat && c.toNat ≠ 0x7F

/-- What follows a line end. -/
def newline? : List Char → Option (List Char)
  | '\n' :: rest => some rest
  | '\r' :: '\n' :: rest => some rest
  | _ => none

def skipComment : List Char → List Char
  | '#' :: rest => rest.dropWhile isPlain
  | cs => cs

def lineEnd? (cs : List Char) : Option (List Char) :=
  match skipComment (skipSpace cs) with
  | [] => some []
  | rest => newline? rest

def skipLines : (fuel : Nat) → List Char → List Char
  | 0, cs => cs
  | fuel + 1, cs =>
    match newline? (skipComment (skipSpace cs)) with
    | some rest => skipLines fuel rest
    | none => skipSpace cs

/-- The character with a number given by hexadecimal digits. -/
def charOf? (digits : List Char) : Option Char := do
  let n ← digits.foldlM (fun n c => (digit? 16 c).map (n * 16 + ·)) 0
  if n < 0xD800 ∨ 0xDFFF < n ∧ n < 0x110000 then some (Char.ofNat n) else none

/-- The character that stands after a backslash, and what follows. -/
def escape? : List Char → Option (Char × List Char)
  | 'b' :: rest => some ('\x08', rest)
  | 't' :: rest => some ('\t', rest)
  | 'n' :: rest => some ('\n', rest)
  | 'f' :: rest => some ('\x0c', rest)
  | 'r' :: rest => some ('\r', rest)
  | '"' :: rest => some ('"', rest)
  | '\\' :: rest => some ('\\', rest)
  | 'u' :: rest => if rest.length < 4 then none else (charOf? (rest.take 4)).map (·, rest.drop 4)
  | 'U' :: rest => if rest.length < 8 then none else (charOf? (rest.take 8)).map (·, rest.drop 8)
  | _ => none

/-- A string with escapes up to its closing quote. -/
def basic? (done : List Char) : (fuel : Nat) → List Char → Option (List Char × List Char)
  | 0, _ => none
  | fuel + 1, cs =>
    match cs with
    | '"' :: rest => some (done.reverse, rest)
    | '\\' :: rest => do
      let (c, rest) ← escape? rest
      basic? (c :: done) fuel rest
    | c :: rest => if isPlain c then basic? (c :: done) fuel rest else none
    | [] => none

/-- A string without escapes up to its closing quote. -/
def literal? (cs : List Char) : Option (List Char × List Char) :=
  match cs.span (fun c => isPlain c && c ≠ '\'') with
  | (content, '\'' :: rest) => some (content, rest)
  | _ => none

def skipBlankLines : (fuel : Nat) → List Char → List Char
  | 0, cs => cs
  | fuel + 1, cs =>
    match newline? (skipSpace cs) with
    | some rest => skipBlankLines fuel rest
    | none => skipSpace cs

/-- A string over several lines up to its closing quotes; only one kind of quotes has escapes. A
backslash at the end of a line joins it to the next text. Up to two quotes may stand before the
closing ones. -/
def multiline? (quote : Char) (done : List Char) : (fuel : Nat) → List Char →
    Option (List Char × List Char)
  | 0, _ => none
  | fuel + 1, cs =>
    match cs with
    | [] => none
    | c :: rest =>
      if c = quote then
        let run := (cs.takeWhile (· = quote)).length
        if run < 3 then multiline? quote (List.replicate run quote ++ done) fuel (cs.drop run)
        else
          let inside := min (run - 3) 2
          some ((List.replicate inside quote ++ done).reverse, cs.drop (inside + 3))
      else if c = '\\' && quote = '"' then
        if (newline? (skipSpace rest)).isSome then
          multiline? quote done fuel (skipBlankLines rest.length rest)
        else
          match escape? rest with
          | some (e, rest) => multiline? quote (e :: done) fuel rest
          | none => none
      else
        match newline? cs with
        | some rest => multiline? quote ('\n' :: done) fuel rest
        | none => if isPlain c then multiline? quote (c :: done) fuel rest else none

/-- A line end at the beginning of a string does not count. -/
def dropNewline (cs : List Char) : List Char := (newline? cs).getD cs

/-- A string at the beginning of a text. -/
def string? : List Char → Option (List Char × List Char)
  | '"' :: '"' :: '"' :: rest => multiline? '"' [] (rest.length + 1) (dropNewline rest)
  | '\'' :: '\'' :: '\'' :: rest => multiline? '\'' [] (rest.length + 1) (dropNewline rest)
  | '"' :: rest => basic? [] (rest.length + 1) rest
  | '\'' :: rest => literal? rest
  | _ => none

def isBareKeyChar (c : Char) : Bool := c.isAlphanum || c = '_' || c = '-'

def simpleKey? (cs : List Char) : Option (String × List Char) :=
  match cs with
  | '"' :: rest => (basic? [] (rest.length + 1) rest).map fun (k, rest) => (String.ofList k, rest)
  | '\'' :: rest => (literal? rest).map fun (k, rest) => (String.ofList k, rest)
  | _ =>
    match cs.span isBareKeyChar with
    | ([], _) => none
    | (k, rest) => some (String.ofList k, rest)

/-- Values and keys are nested less deep than this. -/
def maxDepth : Nat := 80

/-- A key with its parts between dots, and spaces around these. -/
def key? : (fuel : Nat) → List Char → Option (List String × List Char)
  | 0, _ => none
  | fuel + 1, cs => do
    let (k, rest) ← simpleKey? (skipSpace cs)
    match skipSpace rest with
    | '.' :: rest =>
      let (ks, rest) ← key? fuel rest
      some (k :: ks, rest)
    | rest => some ([k], rest)

/-- Whether a character may be part of an unquoted value. -/
def isScalarChar (c : Char) : Bool := c.isAlphanum || ['+', '-', '_', '.', ':'].contains c

/-- An unquoted value at the beginning of a text. A time may follow a day after a space. -/
def unquoted? (cs : List Char) : Option (Toml × List Char) :=
  let (text, rest) := cs.span isScalarChar
  let later := rest.drop 1
  if isDay text && rest.head? = some ' ' && isTimePart (later.takeWhile isScalarChar) then
    some (date, later.dropWhile isScalarChar)
  else (scalar? text).map (·, rest)

mutual

/-- A value at the beginning of a text, nested in less than some others. -/
def value? (depth : Nat) : (fuel : Nat) → List Char → Option (Toml × List Char)
  | 0, _ => none
  | fuel + 1, cs =>
    match cs with
    | '[' :: rest =>
      if maxDepth ≤ depth + 1 then none
      else (items? (depth + 1) fuel (skipLines rest.length rest)).map fun (items, rest) =>
        (.array items, rest)
    | '\x7b' :: rest =>
      if maxDepth ≤ depth + 1 then none
      else
        match skipSpace rest with
        | '\x7d' :: rest => some (.table [], rest)
        | rest => (pairs? (depth + 1) fuel [] rest).map fun (entries, rest) =>
            (.table (Entry.values entries), rest)
    | c :: _ =>
      if c = '"' || c = '\'' then
        (string? cs).map fun (s, rest) => (.string (String.ofList s), rest)
      else unquoted? cs
    | [] => none

/-- The items of an array up to its closing bracket. -/
def items? (depth : Nat) : (fuel : Nat) → List Char → Option (List Toml × List Char)
  | 0, _ => none
  | fuel + 1, cs =>
    match cs with
    | ']' :: rest => some ([], rest)
    | _ => do
      let (item, rest) ← value? depth fuel cs
      match skipLines rest.length rest with
      | ']' :: rest => some ([item], rest)
      | ',' :: rest =>
        let (items, rest) ← items? depth fuel (skipLines rest.length rest)
        some (item :: items, rest)
      | _ => none

/-- The pairs of an inline table up to its closing brace, added to those before. -/
def pairs? (depth : Nat) : (fuel : Nat) → List Entry → List Char → Option (List Entry × List Char)
  | 0, _, _ => none
  | fuel + 1, before, cs => do
    let (path, rest) ← key? maxDepth cs
    match skipSpace rest with
    | '=' :: rest =>
      let (v, rest) ← value? depth fuel (skipSpace rest)
      let entries ← Entry.assign path v before
      match skipSpace rest with
      | '\x7d' :: rest => some (entries, rest)
      | ',' :: rest => pairs? depth fuel entries (skipSpace rest)
      | _ => none
    | _ => none

end

/-- A document that is being read: the entries so far, and the header that new ones come under. -/
structure Draft where
  entries : List Entry := []
  header : List String := []

/-- The header of a table after its opening brackets. -/
def header? (closing : List Char) (cs : List Char) : Option (List String × List Char) := do
  let (path, rest) ← key? maxDepth cs
  if maxDepth ≤ path.length then none
  else if closing.isPrefixOf rest then
    let rest ← lineEnd? (rest.drop closing.length)
    some (path, rest)
  else none

def line? (d : Draft) (cs : List Char) : Option (Draft × List Char) :=
  match skipSpace cs with
  | '[' :: '[' :: rest => do
    let (path, rest) ← header? [']', ']'] rest
    some ({ entries := ← Entry.addElement path d.entries, header := path }, rest)
  | '[' :: rest => do
    let (path, rest) ← header? [']'] rest
    some ({ entries := ← Entry.addTable path d.entries, header := path }, rest)
  | cs =>
    match lineEnd? cs with
    | some rest => some (d, rest)
    | none => do
      let (path, rest) ← key? maxDepth cs
      if maxDepth ≤ path.length then none
      else
        match skipSpace rest with
        | '=' :: rest =>
          let (v, rest) ← value? 0 (rest.length + 1) (skipSpace rest)
          let rest ← lineEnd? rest
          some ({ d with entries := ← Entry.assignUnder d.header path v d.entries }, rest)
        | _ => none

def lines? : (fuel : Nat) → Draft → List Char → Option (List Entry)
  | _, d, [] => some d.entries
  | 0, _, _ => none
  | fuel + 1, d, cs => do
    let (d, rest) ← line? d cs
    lines? fuel d rest

/-- Reads a document. A byte order mark may stand in front. -/
def ofText? (text : String) : Option (List (String × Toml)) :=
  let cs := match text.toList with
    | '\uFEFF' :: rest => rest
    | cs => cs
  (lines? (cs.length + 1) {} cs).map Entry.values

end CodeSurvey.Toml
