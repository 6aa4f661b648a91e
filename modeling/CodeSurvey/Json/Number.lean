import CodeSurvey.Json.Value

namespace CodeSurvey

/-- A number as it is written; digits by their values. -/
structure NumberLiteral where
  negative : Bool
  whole : List Nat
  fraction : Option (List Nat)
  exponent : Option (Bool × List Nat)
deriving DecidableEq, Repr, Inhabited

namespace NumberLiteral

/-- Significands stay below this. -/
def significandBound : Nat := Nat.pow 2 64

def ofDigits (digits : List Nat) : Nat := digits.foldl (fun n d => n * 10 + d) 0

/-- Takes digits into a significand as long as it stays below its bound. The rest is what no longer
fits. -/
def accumulate (significand : Nat) : List Nat → Nat × List Nat
  | [] => (significand, [])
  | d :: rest =>
    if significand * 10 + d < significandBound then accumulate (significand * 10 + d) rest
    else (significand, d :: rest)

/-- The greatest power of ten that is a finite double. -/
def maxPower : Nat := 308

/-- A double times a power of ten, in one step of at most `maxPower`, and before it steps of exactly
that for very small results. Nothing is the result if it would be infinite. -/
def timesPower (x : Binary64) (exponent : Int) : (fuel : Nat) → Option Binary64
  | 0 => some x
  | fuel + 1 => do
    if exponent.natAbs ≤ maxPower then
      let power ← Binary64.ofNat (Nat.pow 10 exponent.natAbs)
      if 0 ≤ exponent then x.mul power else x.div power
    else if x.isZero then some x
    else if 0 ≤ exponent then none
    else
      let power ← Binary64.ofNat (Nat.pow 10 maxPower)
      timesPower (← x.div power) (exponent + maxPower) fuel

def double? (negative : Bool) (significand : Nat) (exponent : Int) : Option Binary64 := do
  let x ← timesPower (← Binary64.ofNat significand) exponent 4
  some { x with negative }

def givenExponent (l : NumberLiteral) : Int :=
  match l.exponent with
  | none => 0
  | some (true, digits) => -(ofDigits digits : Int)
  | some (false, digits) => ofDigits digits

/-- The value as a double: all digits that fit make up the significand, the others only count. -/
def asDouble? (l : NumberLiteral) : Option Binary64 :=
  let (significand, dropped) := accumulate 0 l.whole
  let fraction := l.fraction.getD []
  let (significand, rest) := accumulate significand fraction
  double? l.negative significand
    (dropped.length - (fraction.length - rest.length : Nat) + l.givenExponent)

/-- The value, unless it is out of range. A whole number of at most 64 bits stays one, but zero with
a sign is a double. -/
def value? (l : NumberLiteral) : Option JsonNumber :=
  let n := ofDigits l.whole
  let isWhole := l.fraction.isNone && l.exponent.isNone &&
    (if l.negative then 0 < n && n ≤ Nat.pow 2 63 else n < Nat.pow 2 64)
  if isWhole then some (.integer (if l.negative then -n else n))
  else l.asDouble?.map .double

end NumberLiteral

end CodeSurvey
