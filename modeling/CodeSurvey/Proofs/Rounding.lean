import CodeSurvey.Decimal.Binary64
import Mathlib.Algebra.Order.Field.Power
import Mathlib.Data.Rat.Cast.Order
import Mathlib.Tactic.FieldSimp
import Mathlib.Tactic.Linarith
import Mathlib.Tactic.NormNum
import Mathlib.Tactic.Positivity
import Mathlib.Tactic.Ring

namespace CodeSurvey.Binary64

variable {x y : Binary64} {negative : Bool} {num den m : Nat} {e : Int}

def magnitude (x : Binary64) : ℚ := x.mantissa * 2 ^ x.exponent

/-- A mantissa of 53 digits at most, with an exponent that is not too large. -/
structure Finite (x : Binary64) : Prop where
  mantissa : x.mantissa < 2 ^ 53
  exponent : x.exponent ≤ 971

/-- The least power of two that is too large to be a number. -/
def limit : ℚ := 2 ^ (1024 : Int)

/-- The middle between the greatest number and the limit. -/
def middle : ℚ := limit - 2 ^ (970 : Int)

theorem two_zpow_pos (e : Int) : (0 : ℚ) < 2 ^ e := zpow_pos two_pos e

theorem mul_two_zpow_add (m k : Nat) (e : Int) :
    (m : ℚ) * 2 ^ (e + k) = ((m * 2 ^ k : Nat) : ℚ) * 2 ^ e := by
  rw [zpow_add₀ two_ne_zero, zpow_natCast]
  push_cast
  ring

theorem mul_two_zpow_le (hm : m ≤ 2 ^ 53) (e : Int) : (m : ℚ) * 2 ^ e ≤ 2 ^ (53 + e) := by
  rw [zpow_add₀ two_ne_zero]
  exact mul_le_mul_of_nonneg_right (by exact_mod_cast hm) (two_zpow_pos e).le

theorem zpow_toNat_div (b : ℚ) (hb : b ≠ 0) (e : Int) : b ^ e.toNat / b ^ (-e).toNat = b ^ e := by
  rw [← zpow_natCast, ← zpow_natCast, ← zpow_sub₀ hb]
  congr 1
  omega

theorem numerator_div_denominator (x : Binary64) :
    (x.numerator : ℚ) / x.denominator = x.magnitude := by
  rw [magnitude, ← zpow_toNat_div 2 two_ne_zero]
  simp [numerator, denominator, mul_div_assoc]

theorem denominator_pos (x : Binary64) : 0 < x.denominator := Nat.two_pow_pos _

theorem scale_div (num den : Nat) (e : Int) :
    ((scale num den e).1 : ℚ) / (scale num den e).2 = num / den * 2 ^ e := by
  rw [← zpow_toNat_div 2 two_ne_zero]
  simp [scale, mul_div_mul_comm]

theorem scale_pos (h : 0 < den) (num : Nat) (e : Int) : 0 < (scale num den e).2 :=
  Nat.mul_pos h (Nat.two_pow_pos _)

section RoundDiv

theorem roundDiv_cases (num den : Nat) :
    (roundDiv num den = num / den ∧ 2 * (num % den) ≤ den) ∨
      (roundDiv num den = num / den + 1 ∧ den ≤ 2 * (num % den)) := by
  unfold roundDiv
  dsimp only
  split
  next lt => exact .inl ⟨rfl, lt.le⟩
  next ge =>
    split
    next gt => exact .inr ⟨rfl, gt.le⟩
    next le =>
      rcases Nat.mod_two_eq_zero_or_one (num / den) with even | odd
      · exact .inl ⟨by rw [even, Nat.add_zero], Nat.not_lt.mp le⟩
      · exact .inr ⟨by rw [odd], Nat.not_lt.mp ge⟩

theorem roundDiv_le (h : 0 < den) (le : (num : ℚ) / den ≤ m) : roundDiv num den ≤ m := by
  have hd : (0 : ℚ) < den := by exact_mod_cast h
  have bound : num ≤ m * den := by exact_mod_cast (div_le_iff₀ hd).mp le
  have quotient : num / den ≤ m := Nat.div_le_of_le_mul (by rwa [Nat.mul_comm] at bound)
  rcases roundDiv_cases num den with ⟨eq, -⟩ | ⟨eq, half⟩
  · omega
  · -- the quotient is no whole number here, so that it is not the bound itself
    have split := Nat.div_add_mod num den
    rcases Nat.lt_or_eq_of_le quotient with lt | same
    · omega
    · rw [same, Nat.mul_comm] at split
      omega

theorem le_roundDiv (h : 0 < den) (le : (m : ℚ) ≤ num / den) : m ≤ roundDiv num den := by
  have hd : (0 : ℚ) < den := by exact_mod_cast h
  have bound : m * den ≤ num := by exact_mod_cast (le_div_iff₀ hd).mp le
  have quotient : m ≤ num / den := (Nat.le_div_iff_mul_le h).mpr bound
  rcases roundDiv_cases num den with ⟨eq, -⟩ | ⟨eq, -⟩ <;> omega

theorem roundDiv_le_add_half (h : 0 < den) :
    (roundDiv num den : ℚ) ≤ num / den + 1 / 2 := by
  have hd : (0 : ℚ) < den := by exact_mod_cast h
  have split : (den : ℚ) * (num / den : Nat) + (num % den : Nat) = num := by
    exact_mod_cast Nat.div_add_mod num den
  have rest : (0 : ℚ) ≤ (num % den : Nat) := Nat.cast_nonneg _
  rw [← sub_le_iff_le_add, le_div_iff₀ hd]
  rcases roundDiv_cases num den with ⟨eq, -⟩ | ⟨eq, half⟩
  · rw [eq]
    linarith
  · have half : (den : ℚ) ≤ 2 * (num % den : Nat) := by exact_mod_cast half
    rw [eq, Nat.cast_add_one]
    linarith

end RoundDiv

/-- The exponent with which a quotient has a mantissa of exactly 53 digits. -/
def exponentAbove (num den : Nat) : Int :=
  let guess : Int := (Nat.log2 num : Int) - Nat.log2 den
  if (scale num den (-guess)).1 < (scale num den (-guess)).2 then guess - 53 else guess - 52

theorem exponentFor_eq (num den : Nat) :
    exponentFor num den = max minExponent (exponentAbove num den) := rfl

theorem quotient_near_log2 (hn : 0 < num) (hd : 0 < den) :
    (2 : ℚ) ^ ((Nat.log2 num : Int) - Nat.log2 den - 1) < num / den ∧
      (num : ℚ) / den < 2 ^ ((Nat.log2 num : Int) - Nat.log2 den + 1) := by
  have hd' : (0 : ℚ) < den := by exact_mod_cast hd
  have numLow : (2 : ℚ) ^ (Nat.log2 num : Int) ≤ num := by
    exact_mod_cast Nat.log2_self_le (Nat.ne_of_gt hn)
  have numHigh : (num : ℚ) < 2 ^ ((Nat.log2 num : Int) + 1) := by
    exact_mod_cast Nat.lt_log2_self (n := num)
  have denLow : (2 : ℚ) ^ (Nat.log2 den : Int) ≤ den := by
    exact_mod_cast Nat.log2_self_le (Nat.ne_of_gt hd)
  have denHigh : (den : ℚ) < 2 ^ ((Nat.log2 den : Int) + 1) := by
    exact_mod_cast Nat.lt_log2_self (n := den)
  constructor
  · rw [lt_div_iff₀ hd']
    calc (2 : ℚ) ^ ((Nat.log2 num : Int) - Nat.log2 den - 1) * den
        < 2 ^ ((Nat.log2 num : Int) - Nat.log2 den - 1) * 2 ^ ((Nat.log2 den : Int) + 1) :=
          mul_lt_mul_of_pos_left denHigh (two_zpow_pos _)
      _ = 2 ^ (Nat.log2 num : Int) := by
          rw [← zpow_add₀ two_ne_zero]
          congr 1
          omega
      _ ≤ num := numLow
  · rw [div_lt_iff₀ hd']
    calc (num : ℚ) < 2 ^ ((Nat.log2 num : Int) + 1) := numHigh
      _ = 2 ^ ((Nat.log2 num : Int) - Nat.log2 den + 1) * 2 ^ (Nat.log2 den : Int) := by
          rw [← zpow_add₀ two_ne_zero]
          congr 1
          omega
      _ ≤ 2 ^ ((Nat.log2 num : Int) - Nat.log2 den + 1) * den :=
          mul_le_mul_of_nonneg_left denLow (two_zpow_pos _).le

theorem exponentAbove_spec (hn : 0 < num) (hd : 0 < den) :
    (2 : ℚ) ^ (exponentAbove num den + 52) ≤ num / den ∧
      (num : ℚ) / den < 2 ^ (exponentAbove num den + 53) := by
  obtain ⟨low, high⟩ := quotient_near_log2 hn hd
  set guess : Int := (Nat.log2 num : Int) - Nat.log2 den with hg
  have scaled : (scale num den (-guess)).1 < (scale num den (-guess)).2 ↔
      (num : ℚ) / den < 2 ^ guess := by
    have pos : (0 : ℚ) < (scale num den (-guess)).2 := by exact_mod_cast scale_pos hd num (-guess)
    have quotient := scale_div num den (-guess)
    rw [zpow_neg, ← div_eq_mul_inv] at quotient
    rw [← div_lt_one (two_zpow_pos guess), ← quotient, div_lt_one pos, Nat.cast_lt]
  unfold exponentAbove
  rw [← hg]
  dsimp only
  split
  next small =>
    rw [show guess - 53 + 52 = guess - 1 by omega, show guess - 53 + 53 = guess by omega]
    exact ⟨low.le, scaled.mp small⟩
  next large =>
    rw [show guess - 52 + 52 = guess by omega, show guess - 52 + 53 = guess + 1 by omega]
    exact ⟨not_lt.mp fun small => large (scaled.mpr small), high⟩

theorem exponentFor_spec (hn : 0 < num) (hd : 0 < den) :
    minExponent ≤ exponentFor num den ∧ (num : ℚ) / den < 2 ^ (exponentFor num den + 53) ∧
      (exponentFor num den = minExponent ∨ (2 : ℚ) ^ (exponentFor num den + 52) ≤ num / den) := by
  obtain ⟨low, high⟩ := exponentAbove_spec hn hd
  rw [exponentFor_eq]
  refine ⟨le_max_left _ _, high.trans_le (zpow_le_zpow_right₀ one_le_two ?_), ?_⟩
  · have := le_max_right minExponent (exponentAbove num den)
    omega
  · rcases le_total (exponentAbove num den) minExponent with le | ge
    · exact .inl (max_eq_left le)
    · rw [max_eq_right ge]
      exact .inr low

/-- The mantissa that a quotient is rounded to, before a carry. -/
def rounded (num den : Nat) : Nat :=
  roundDiv (scale num den (-exponentFor num den)).1 (scale num den (-exponentFor num den)).2

theorem scaled_quotient (num den : Nat) :
    ((scale num den (-exponentFor num den)).1 : ℚ) / (scale num den (-exponentFor num den)).2 =
      num / den / 2 ^ exponentFor num den := by
  rw [scale_div, zpow_neg, div_eq_mul_inv _ (2 ^ _)]

theorem rounded_le (hd : 0 < den) (le : (num : ℚ) / den ≤ m * 2 ^ exponentFor num den) :
    rounded num den ≤ m := by
  refine roundDiv_le (scale_pos hd _ _) ?_
  rwa [scaled_quotient, div_le_iff₀ (two_zpow_pos _)]

theorem le_rounded (hd : 0 < den) (le : m * 2 ^ exponentFor num den ≤ (num : ℚ) / den) :
    m ≤ rounded num den := by
  refine le_roundDiv (scale_pos hd _ _) ?_
  rwa [scaled_quotient, le_div_iff₀ (two_zpow_pos _)]

theorem rounded_mul_le_add_half (num : Nat) (hd : 0 < den) :
    (rounded num den : ℚ) * 2 ^ exponentFor num den ≤
      num / den + 2 ^ (exponentFor num den - 1) := by
  have half : (rounded num den : ℚ) ≤ num / den / 2 ^ exponentFor num den + 1 / 2 := by
    rw [← scaled_quotient]
    exact roundDiv_le_add_half (scale_pos hd _ _)
  have pos := two_zpow_pos (exponentFor num den)
  calc (rounded num den : ℚ) * 2 ^ exponentFor num den
      ≤ (num / den / 2 ^ exponentFor num den + 1 / 2) * 2 ^ exponentFor num den :=
        mul_le_mul_of_nonneg_right half pos.le
    _ = num / den + 2 ^ (exponentFor num den - 1) := by
        rw [add_mul, div_mul_cancel₀ _ pos.ne', zpow_sub_one₀ two_ne_zero]
        ring

theorem rounded_le_bound (hn : 0 < num) (hd : 0 < den) : rounded num den ≤ 2 ^ 53 := by
  refine rounded_le hd ((exponentFor_spec hn hd).2.1.le.trans_eq ?_)
  rw [add_comm, zpow_add₀ two_ne_zero]
  norm_num

theorem bound_le_rounded (hn : 0 < num) (hd : 0 < den) (ne : exponentFor num den ≠ minExponent) :
    2 ^ 52 ≤ rounded num den := by
  refine le_rounded hd (le_trans (le_of_eq ?_) ((exponentFor_spec hn hd).2.2.resolve_left ne))
  rw [add_comm, zpow_add₀ two_ne_zero]
  norm_num

/-- Mantissa and exponent after a carry, if there is one. -/
def carried (num den : Nat) : Nat × Int :=
  if rounded num den = mantissaBound then (rounded num den / 2, exponentFor num den + 1)
  else (rounded num den, exponentFor num den)

theorem ofRatio_eq (negative : Bool) (hn : 0 < num) (den : Nat) :
    ofRatio negative num den = if maxExponent < (carried num den).2 then none
      else some ⟨negative, (carried num den).1, (carried num den).2⟩ := by
  rw [ofRatio, if_neg (Nat.ne_of_gt hn)]
  rfl

theorem carried_spec (hn : 0 < num) (hd : 0 < den) :
    ((carried num den).1 : ℚ) * 2 ^ (carried num den).2 =
        rounded num den * 2 ^ exponentFor num den ∧
      (carried num den).1 < 2 ^ 53 ∧
      ((carried num den).2 = minExponent ∨ 2 ^ 52 ≤ (carried num den).1) := by
  have bound := rounded_le_bound hn hd
  unfold carried
  split
  next carry =>
    have carry : rounded num den = 2 ^ 53 := carry
    rw [carry, zpow_add₀ two_ne_zero]
    norm_num
    ring
  next none =>
    have none : rounded num den ≠ 2 ^ 53 := none
    exact ⟨rfl, by omega, or_iff_not_imp_left.mpr (bound_le_rounded hn hd)⟩

theorem rounded_mul_le (hn : 0 < num) (hd : 0 < den) (hm : m ≤ 2 ^ 53) (he : minExponent ≤ e)
    (le : (num : ℚ) / den ≤ m * 2 ^ e) :
    (rounded num den : ℚ) * 2 ^ exponentFor num den ≤ m * 2 ^ e := by
  rcases le_or_gt (exponentFor num den) e with below | above
  · obtain ⟨k, rfl⟩ := Int.le.dest below
    rw [mul_two_zpow_add] at le ⊢
    exact mul_le_mul_of_nonneg_right (by exact_mod_cast rounded_le hd le) (two_zpow_pos _).le
  · -- the quotient has 53 digits, so that it is at least the bound, and equal to it
    have normal := (exponentFor_spec hn hd).2.2.resolve_left (by omega)
    have atMost : (m : ℚ) * 2 ^ e ≤ 2 ^ (exponentFor num den + 52) :=
      (mul_two_zpow_le hm e).trans (zpow_le_zpow_right₀ one_le_two (by omega))
    have power : (2 : ℚ) ^ (exponentFor num den + 52) =
        ((2 ^ 52 : Nat) : ℚ) * 2 ^ exponentFor num den := by
      simpa using mul_two_zpow_add 1 52 (exponentFor num den)
    have le52 : rounded num den ≤ 2 ^ 52 := rounded_le hd (power ▸ le.trans atMost)
    calc (rounded num den : ℚ) * 2 ^ exponentFor num den
        ≤ ((2 ^ 52 : Nat) : ℚ) * 2 ^ exponentFor num den :=
          mul_le_mul_of_nonneg_right (by exact_mod_cast le52) (two_zpow_pos _).le
      _ ≤ num / den := power ▸ normal
      _ ≤ m * 2 ^ e := le

theorem le_rounded_mul (hn : 0 < num) (hd : 0 < den) (hm : m ≤ 2 ^ 53) (he : minExponent ≤ e)
    (le : (m : ℚ) * 2 ^ e ≤ num / den) :
    (m : ℚ) * 2 ^ e ≤ rounded num den * 2 ^ exponentFor num den := by
  rcases le_or_gt (exponentFor num den) e with below | above
  · obtain ⟨k, rfl⟩ := Int.le.dest below
    rw [mul_two_zpow_add] at le ⊢
    exact mul_le_mul_of_nonneg_right (by exact_mod_cast le_rounded hd le) (two_zpow_pos _).le
  · calc (m : ℚ) * 2 ^ e ≤ 2 ^ (53 + e) := mul_two_zpow_le hm e
      _ ≤ 2 ^ ((52 : Int) + exponentFor num den) := zpow_le_zpow_right₀ one_le_two (by omega)
      _ = 2 ^ (52 : Int) * 2 ^ exponentFor num den := zpow_add₀ two_ne_zero _ _
      _ ≤ rounded num den * 2 ^ exponentFor num den :=
          mul_le_mul_of_nonneg_right
            (by exact_mod_cast bound_le_rounded hn hd (by omega)) (two_zpow_pos _).le

/-- What is below the middle between the greatest number and the next power of two is not rounded to
that power. -/
theorem rounded_mul_lt (hn : 0 < num) (hd : 0 < den)
    (lt : (num : ℚ) / den < middle) :
    (rounded num den : ℚ) * 2 ^ exponentFor num den < limit := by
  rcases lt_trichotomy (exponentFor num den) 971 with below | eq | above
  · calc (rounded num den : ℚ) * 2 ^ exponentFor num den
        ≤ 2 ^ (53 + exponentFor num den) := mul_two_zpow_le (rounded_le_bound hn hd) _
      _ ≤ 2 ^ (1023 : Int) := zpow_le_zpow_right₀ one_le_two (by omega)
      _ < limit := zpow_lt_zpow_right₀ one_lt_two (by norm_num)
  · have half := rounded_mul_le_add_half num hd
    rw [eq, show (971 : Int) - 1 = 970 by norm_num] at half
    rw [eq]
    exact half.trans_lt (lt_sub_iff_add_lt.mp lt)
  · have normal := (exponentFor_spec hn hd).2.2.resolve_left (by simp only [minExponent]; omega)
    have large : limit ≤ 2 ^ (exponentFor num den + 52) :=
      zpow_le_zpow_right₀ one_le_two (by omega)
    exact absurd (large.trans normal) (not_le.mpr (lt.trans (sub_lt_self _ (two_zpow_pos 970))))

theorem ofRatio_eq_some (negative : Bool) (hn : 0 < num) (hd : 0 < den)
    (lt : (rounded num den : ℚ) * 2 ^ exponentFor num den < limit) :
    ofRatio negative num den = some ⟨negative, (carried num den).1, (carried num den).2⟩ := by
  rw [ofRatio_eq negative hn, if_neg]
  obtain ⟨same, -, normal⟩ := carried_spec hn hd
  rw [← same] at lt
  intro large
  have large : 971 < (carried num den).2 := large
  have mantissa : 2 ^ 52 ≤ (carried num den).1 :=
    normal.resolve_left (by simp only [minExponent]; omega)
  have : limit ≤ (carried num den).1 * 2 ^ (carried num den).2 := by
    calc limit = 2 ^ (52 : Int) * 2 ^ (972 : Int) := by
          rw [limit, ← zpow_add₀ two_ne_zero]
          congr 1
      _ ≤ (carried num den).1 * 2 ^ (carried num den).2 :=
          mul_le_mul (by exact_mod_cast mantissa) (zpow_le_zpow_right₀ one_le_two (by omega))
            (two_zpow_pos _).le (Nat.cast_nonneg _)
  exact absurd lt (not_lt.mpr this)

theorem Finite.of_ofRatio (hd : 0 < den) (h : ofRatio negative num den = some y) : y.Finite := by
  rcases Nat.eq_zero_or_pos num with rfl | hn
  · cases h
    exact ⟨by norm_num [zero], by norm_num [zero, minExponent]⟩
  · rw [ofRatio_eq negative hn] at h
    split at h
    next => cases h
    next small =>
      cases h
      exact ⟨(carried_spec hn hd).2.1, Int.not_lt.mp small⟩

theorem magnitude_of_ofRatio (hn : 0 < num) (hd : 0 < den)
    (h : ofRatio negative num den = some y) :
    y.magnitude = rounded num den * 2 ^ exponentFor num den := by
  rw [ofRatio_eq negative hn] at h
  split at h
  next => cases h
  next =>
    cases h
    exact (carried_spec hn hd).1

theorem ofRatio_le (negative : Bool) (hd : 0 < den) (hm : m ≤ 2 ^ 53) (he : minExponent ≤ e)
    (le : (num : ℚ) / den ≤ m * 2 ^ e) (small : (m : ℚ) * 2 ^ e < limit) :
    ∃ y, ofRatio negative num den = some y ∧ y.magnitude ≤ m * 2 ^ e := by
  rcases Nat.eq_zero_or_pos num with rfl | hn
  · exact ⟨_, rfl, by
      rw [magnitude]
      simp only [zero, Nat.cast_zero, zero_mul]
      exact mul_nonneg (Nat.cast_nonneg _) (two_zpow_pos e).le⟩
  · have bound := rounded_mul_le hn hd hm he le
    have some := ofRatio_eq_some negative hn hd (bound.trans_lt small)
    exact ⟨_, some, (magnitude_of_ofRatio hn hd some).trans_le bound⟩

theorem le_magnitude_of_ofRatio (hn : 0 < num) (hd : 0 < den)
    (h : ofRatio negative num den = some y) (hm : m ≤ 2 ^ 53) (he : minExponent ≤ e)
    (le : (m : ℚ) * 2 ^ e ≤ num / den) : (m : ℚ) * 2 ^ e ≤ y.magnitude :=
  (le_rounded_mul hn hd hm he le).trans_eq (magnitude_of_ofRatio hn hd h).symm

theorem ofRatio_of_lt_middle (negative : Bool) (hd : 0 < den)
    (lt : (num : ℚ) / den < middle) : ∃ y, ofRatio negative num den = some y := by
  rcases Nat.eq_zero_or_pos num with rfl | hn
  · exact ⟨_, rfl⟩
  · exact ⟨_, ofRatio_eq_some negative hn hd (rounded_mul_lt hn hd lt)⟩

end CodeSurvey.Binary64
