import CodeSurvey.Decimal.Binary64

namespace CodeSurvey.Binary64

/-- A number with some digits after the point, rounded exactly; a half goes to the even neighbour.
The sign stays even if nothing else is left. -/
def fixed (places : Nat) (x : Binary64) : String :=
  let scaled := roundDiv (x.numerator * Nat.pow 10 places) x.denominator
  let digits := Nat.toDigits 10 scaled
  let padded := List.replicate (places + 1 - digits.length) '0' ++ digits
  let whole := padded.take (padded.length - places)
  let fraction := padded.drop (padded.length - places)
  String.ofList ((if x.negative then ['-'] else []) ++ whole ++ '.' :: fraction)

end CodeSurvey.Binary64
