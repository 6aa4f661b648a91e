import CodeSurvey.Decimal.Binary64
import CodeSurvey.Toml.Value

namespace CodeSurvey.Toml

def digit? (base : Nat) (c : Char) : Option Nat :=
  let n := if c.isDigit then c.toNat - '0'.toNat
    else if 'a' ≤ c ∧ c ≤ 'f' then c.toNat - 'a'.toNat + 10
    else if 'A' ≤ c ∧ c ≤ 'F' then c.toNat - 'A'.toNat + 10
    else base
  if n < base then some n else none

/-- The number that digits make after a digit before them. There may be an underscore between any
two digits. -/
def digitsAfter? (base n : Nat) : List Char → Option Nat
  | [] => some n
  | '_' :: c :: rest => (digit? base c).bind fun d => digitsAfter? base (n * base + d) rest
  | c :: rest => (digit? base c).bind fun d => digitsAfter? base (n * base + d) rest

/-- The number that at least one digit makes. -/
def digits? (base : Nat) : List Char → Option Nat
  | [] => none
  | c :: rest => (digit? base c).bind fun d => digitsAfter? base d rest

/-- A number without superfluous zeros in front. -/
def natural? : List Char → Option Nat
  | ['0'] => some 0
  | '0' :: _ => none
  | cs => digits? 10 cs

def sign : List Char → Bool × List Char
  | '-' :: cs => (true, cs)
  | '+' :: cs => (false, cs)
  | cs => (false, cs)

/-- Whole numbers are below this in size, but for the lowest one. -/
def wordBound : Int := 9223372036854775808

/-- A whole number of 64 bits with a sign. -/
def integer? (cs : List Char) : Option Int := do
  let n : Int ← match cs with
    | '0' :: 'x' :: rest => digits? 16 rest
    | '0' :: 'o' :: rest => digits? 8 rest
    | '0' :: 'b' :: rest => digits? 2 rest
    | cs =>
      let (negative, rest) := sign cs
      (natural? rest).map fun n => if negative then -(n : Int) else n
  if -wordBound ≤ n ∧ n < wordBound then some n else none

/-- Divides a text at the first character of a kind. -/
def cut (p : Char → Bool) (cs : List Char) : List Char × Option (List Char) :=
  match cs.span (!p ·) with
  | (before, _ :: after) => (before, some after)
  | (before, []) => (before, none)

/-- Whether digits times a power of ten are too large for a double. -/
def overflows (mantissa : Nat) (exponent : Int) : Bool :=
  mantissa ≠ 0 && 0 < exponent + (Nat.toDigits 10 mantissa).length - 300 &&
    (310 < exponent + (Nat.toDigits 10 mantissa).length ||
      (Binary64.ofRatio false (mantissa * Nat.pow 10 exponent.toNat)
        (Nat.pow 10 (-exponent).toNat)).isNone)

/-- Whether a text is a number with a fraction, an exponent or both, or a special value. Positive
numbers that are too large are none. -/
def isFloat (cs : List Char) : Bool :=
  let (negative, cs) := sign cs
  if cs = "inf".toList || cs = "nan".toList then true
  else
    let (mantissa, exponent) := cut (fun c => c = 'e' || c = 'E') cs
    let (whole, fraction) := cut (· = '.') mantissa
    match natural? whole, fraction.map (digits? 10),
      exponent.map fun e => (sign e).map id (digits? 10) with
    | some w, fractionValue, exponentValue =>
      let places := ((fraction.getD []).filter (· ≠ '_')).length
      match fractionValue, exponentValue with
      | none, none => false
      | some none, _ => false
      | _, some (_, none) => false
      | f, e =>
        let power : Int := match e with
          | some (true, some n) => -(n : Int)
          | some (false, some n) => n
          | _ => 0
        let digits := w * Nat.pow 10 places + (f.join.getD 0)
        negative || !overflows digits (power - places)
    | none, _, _ => false

/-- A number of exactly two digits below a bound. -/
def two? (low high : Nat) : List Char → Option Nat
  | [a, b] => do
    let n := (← digit? 10 a) * 10 + (← digit? 10 b)
    if low ≤ n ∧ n ≤ high then some n else none
  | _ => none

def daysOf (year month : Nat) : Nat :=
  if month = 2 then if year % 4 = 0 && (year % 100 ≠ 0 || year % 400 = 0) then 29 else 28
  else if [4, 6, 9, 11].contains month then 30
  else 31

def isDay : List Char → Bool
  | [a, b, c, d, '-', e, f, '-', g, h] =>
    match [a, b, c, d].mapM (digit? 10), two? 1 12 [e, f], two? 1 31 [g, h] with
    | some [a, b, c, d], some month, some day =>
      day ≤ daysOf (a * 1000 + b * 100 + c * 10 + d) month
    | _, _, _ => false
  | _ => false

/-- Whether a text is a time of day, perhaps with parts of a second. -/
def isTime : List Char → Bool
  | a :: b :: ':' :: c :: d :: ':' :: e :: f :: rest =>
    (two? 0 23 [a, b]).isSome && (two? 0 59 [c, d]).isSome && (two? 0 60 [e, f]).isSome &&
      match rest with
      | [] => true
      | '.' :: part => !part.isEmpty && part.all Char.isDigit
      | _ => false
  | _ => false

/-- Whether a text is a time of day with its distance from universal time. -/
def isZonedTime (cs : List Char) : Bool :=
  match cs.reverse with
  | d :: c :: ':' :: b :: a :: s :: rest =>
    if s = '+' || s = '-' then
      (two? 0 23 [a, b]).isSome && (two? 0 59 [c, d]).isSome && isTime rest.reverse
    else if d = 'Z' || d = 'z' then isTime (c :: ':' :: b :: a :: s :: rest).reverse
    else false
  | z :: rest => (z = 'Z' || z = 'z') && isTime rest.reverse
  | [] => false

def isTimePart (cs : List Char) : Bool := isTime cs || isZonedTime cs

/-- Whether a text is a date, a time or both with a letter between them. -/
def isDate (cs : List Char) : Bool :=
  isTime cs || isDay cs ||
    match cs.drop 10 with
    | t :: time => (t = 'T' || t = 't') && isDay (cs.take 10) && isTimePart time
    | [] => false

/-- The value that an unquoted text stands for. -/
def scalar? (cs : List Char) : Option Toml :=
  if cs = "true".toList then some (boolean true)
  else if cs = "false".toList then some (boolean false)
  else if isDate cs then some date
  else if isFloat cs then some float
  else (integer? cs).map integer

end CodeSurvey.Toml
