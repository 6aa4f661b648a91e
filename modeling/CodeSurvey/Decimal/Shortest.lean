import CodeSurvey.Decimal.Binary64

namespace CodeSurvey.Binary64

/-- A natural number of some digits, times ten to the power of an exponent. -/
structure Decimal where
  digits : Nat
  exponent : Int
deriving DecidableEq, Repr, Inhabited

def digitCount (n : Nat) : Nat := (Nat.toDigits 10 n).length

/-- The exponent of ten of the first digit of a quotient that is not zero. -/
def decimalExponent (num den : Nat) : Int :=
  if den ≤ num then digitCount (num / den) - 1
  else -(digitCount ((den + num - 1) / num - 1) : Int)

/-- The bounds of all that rounds to a number, in quarters of its last digit, and whether they
belong to it. -/
def bounds (x : Binary64) : Nat × Nat × Bool :=
  let narrow := 2 * x.mantissa = mantissaBound && minExponent < x.exponent
  (4 * x.mantissa - (if narrow then 1 else 2), 4 * x.mantissa + 2, x.mantissa % 2 = 0)

/-- The points of a decimal grid beside a number, if they round to it; the nearer first, and of two
equally near the even one. -/
def onGrid (x : Binary64) (exponent : Int) : List Nat :=
  let unit : Nat := Nat.pow 10 exponent.toNat * 4 * Nat.pow 2 (-x.exponent).toNat
  let quarters : Nat := Nat.pow 10 (-exponent).toNat * Nat.pow 2 x.exponent.toNat
  let (low, high, closed) := x.bounds
  let inside := fun d : Nat =>
    if closed then low * quarters ≤ d * unit && d * unit ≤ high * quarters
    else low * quarters < d * unit && d * unit < high * quarters
  let below := 4 * x.mantissa * quarters / unit
  let left := 4 * x.mantissa * quarters - below * unit
  let belowFirst := 2 * left < unit || 2 * left = unit && below % 2 = 0
  (if belowFirst then [below, below + 1] else [below + 1, below]).filter fun d =>
    0 < d && inside d

/-- Divides by ten as long as nothing is lost. -/
def strip : Nat → Decimal → Decimal
  | 0, d => d
  | fuel + 1, d =>
    if 0 < d.digits && d.digits % 10 = 0 then strip fuel ⟨d.digits / 10, d.exponent + 1⟩ else d

/-- The first of the coarsest grids that has a point, from a number of digits on. -/
def shortestFrom (x : Binary64) (first : Int) : (fuel digits : Nat) → Decimal
  | 0, _ => ⟨x.mantissa, x.exponent⟩
  | fuel + 1, digits =>
    let exponent := first - digits + 1
    match x.onGrid exponent with
    | d :: _ => strip 20 ⟨d, exponent⟩
    | [] => shortestFrom x first fuel (digits + 1)

/-- The shortest decimal that reads back as a number other than zero; its sign is left out. -/
def shortest (x : Binary64) : Decimal :=
  x.shortestFrom (decimalExponent x.numerator x.denominator) 18 1

/-- Digits with a point after some of them, filled up with zeros on both sides. -/
def positional (digits : List Char) (point : Int) : List Char :=
  if point ≤ 0 then '0' :: '.' :: (List.replicate (-point).toNat '0' ++ digits)
  else
    let whole := digits.take point.toNat
    let fraction := digits.drop point.toNat
    whole ++ List.replicate (point.toNat - whole.length) '0' ++
      '.' :: (if fraction.isEmpty then ['0'] else fraction)

def scientific (digits : List Char) (exponent : Int) : List Char :=
  let sign := if exponent < 0 then '-' else '+'
  digits.take 1 ++ (if digits.length = 1 then [] else '.' :: digits.drop 1) ++
    'e' :: sign :: Nat.toDigits 10 exponent.natAbs

/-- The text of a number: the fewest digits that read back, with an exponent only below 0.00001 and
from 10^16 on. There is always a point or an exponent. -/
def text (x : Binary64) : String :=
  let magnitude :=
    if x.isZero then ['0', '.', '0']
    else
      let d := x.shortest
      let digits := Nat.toDigits 10 d.digits
      let point : Int := d.exponent + digits.length
      if -5 < point && point ≤ 16 then positional digits point else scientific digits (point - 1)
  String.ofList (if x.negative then '-' :: magnitude else magnitude)

end CodeSurvey.Binary64
