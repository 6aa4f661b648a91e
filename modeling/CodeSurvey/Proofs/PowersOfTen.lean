import CodeSurvey.Json.Number
import CodeSurvey.Proofs.Rounding

namespace CodeSurvey

namespace Binary64

variable {x y z : Binary64} {n m : Nat} {e : Int}

theorem numerator_pos (h : 0 < x.mantissa) : 0 < x.numerator := Nat.mul_pos h (Nat.two_pow_pos _)

theorem magnitude_nonneg (x : Binary64) : 0 ≤ x.magnitude :=
  mul_nonneg (Nat.cast_nonneg _) (two_zpow_pos _).le

theorem mantissa_pos (h : 0 < x.magnitude) : 0 < x.mantissa := by
  rw [Nat.pos_iff_ne_zero]
  intro zero
  simp [magnitude, zero] at h

theorem isZero_eq_false (h : 0 < x.mantissa) : x.isZero = false := by
  simp [isZero, Nat.ne_of_gt h]

theorem mul_quotient (x y : Binary64) :
    ((x.numerator * y.numerator : Nat) : ℚ) / (x.denominator * y.denominator : Nat) =
      x.magnitude * y.magnitude := by
  rw [← numerator_div_denominator, ← numerator_div_denominator, div_mul_div_comm]
  push_cast
  rfl

theorem div_quotient (x y : Binary64) :
    ((x.numerator * y.denominator : Nat) : ℚ) / (x.denominator * y.numerator : Nat) =
      x.magnitude / y.magnitude := by
  rw [← numerator_div_denominator, ← numerator_div_denominator, div_div_div_eq]
  push_cast
  rfl

theorem Finite.of_ofNat (h : ofNat n = some x) : x.Finite := .of_ofRatio one_pos h

theorem Finite.of_mul (h : x.mul y = some z) : z.Finite :=
  .of_ofRatio (Nat.mul_pos x.denominator_pos y.denominator_pos) h

theorem Finite.of_div (h : x.div y = some z) : z.Finite := by
  unfold div at h
  split at h
  next => cases h
  next nonzero =>
    have pos : 0 < y.mantissa := Nat.pos_of_ne_zero (by simpa [isZero] using nonzero)
    exact .of_ofRatio (Nat.mul_pos x.denominator_pos (numerator_pos pos)) h

theorem ofNat_le (hm : m ≤ 2 ^ 53) (he : minExponent ≤ e) (le : (n : ℚ) ≤ m * 2 ^ e)
    (small : (m : ℚ) * 2 ^ e < limit) :
    ∃ x, ofNat n = some x ∧ x.magnitude ≤ m * 2 ^ e := by
  refine ofRatio_le false one_pos hm he ?_ small
  rw [Nat.cast_one, div_one]
  exact le

theorem mul_le (hm : m ≤ 2 ^ 53) (he : minExponent ≤ e)
    (le : x.magnitude * y.magnitude ≤ m * 2 ^ e) (small : (m : ℚ) * 2 ^ e < limit) :
    ∃ z, x.mul y = some z ∧ z.magnitude ≤ m * 2 ^ e := by
  refine ofRatio_le _ (Nat.mul_pos x.denominator_pos y.denominator_pos) hm he ?_ small
  rw [mul_quotient]
  exact le

theorem mul_of_lt_middle (lt : x.magnitude * y.magnitude < middle) :
    ∃ z, x.mul y = some z := by
  refine ofRatio_of_lt_middle _ (Nat.mul_pos x.denominator_pos y.denominator_pos) ?_
  rw [mul_quotient]
  exact lt

theorem div_le (hm : m ≤ 2 ^ 53) (he : minExponent ≤ e) (le : x.magnitude ≤ m * 2 ^ e)
    (small : (m : ℚ) * 2 ^ e < limit) (hy : 1 ≤ y.magnitude) :
    ∃ z, x.div y = some z ∧ z.magnitude ≤ m * 2 ^ e := by
  have pos := mantissa_pos (one_pos.trans_le hy)
  rw [div, isZero_eq_false pos]
  refine ofRatio_le _ (Nat.mul_pos x.denominator_pos (numerator_pos pos)) hm he ?_ small
  rw [div_quotient]
  exact (div_le_self x.magnitude_nonneg hy).trans le

end Binary64

namespace NumberLiteral

open Binary64

variable {x y : Binary64} {negative : Bool} {significand : Nat} {exponent : Int}

theorem power_exists {n : Nat} (h : n ≤ maxPower) :
    ∃ p, ofNat (Nat.pow 10 n) = some p ∧ 1 ≤ p.magnitude := by
  rw [Nat.pow_eq]
  have le : 10 ^ n ≤ 10 ^ maxPower := Nat.pow_le_pow_right (by decide) h
  have small : 10 ^ maxPower + 2 ^ 970 < 2 ^ 1024 := by decide +kernel
  have lt : ((10 ^ n : Nat) : ℚ) / (1 : Nat) < middle := by
    rw [Nat.cast_one, div_one, middle, limit, lt_sub_iff_add_lt]
    exact_mod_cast (Nat.add_le_add_right le _).trans_lt small
  obtain ⟨p, hp⟩ := ofRatio_of_lt_middle false one_pos lt
  have pos : 1 ≤ 10 ^ n := Nat.pow_pos (by decide)
  have atLeast := le_magnitude_of_ofRatio (m := 1) (e := 0) pos one_pos hp (by norm_num)
    (by norm_num [minExponent]) (by simpa using (by exact_mod_cast pos : (1 : ℚ) ≤ (10 ^ n : Nat)))
  exact ⟨p, hp, by simpa using atLeast⟩

theorem Finite.of_timesPower {fuel : Nat} (hx : x.Finite)
    (h : timesPower x exponent fuel = some y) : y.Finite := by
  induction fuel generalizing x exponent with
  | zero =>
    cases h
    exact hx
  | succ fuel ih =>
    rw [timesPower] at h
    split at h
    next =>
      obtain ⟨p, -, h⟩ := Option.bind_eq_some_iff.mp h
      split at h
      next => exact .of_mul h
      next => exact .of_div h
    next =>
      split at h
      next =>
        cases h
        exact hx
      next =>
        split at h
        next => cases h
        next =>
          obtain ⟨p, -, h⟩ := Option.bind_eq_some_iff.mp h
          obtain ⟨z, hz, h⟩ := Option.bind_eq_some_iff.mp h
          exact ih (.of_div hz) h

theorem Finite.of_double? (h : double? negative significand exponent = some y) : y.Finite := by
  obtain ⟨x, hx, h⟩ := Option.bind_eq_some_iff.mp h
  obtain ⟨z, hz, h⟩ := Option.bind_eq_some_iff.mp h
  cases h
  have finite := Finite.of_timesPower (.of_ofNat hx) hz
  exact ⟨finite.mantissa, finite.exponent⟩

theorem two_pow_sixtyFour_lt_limit : ((1 : Nat) : ℚ) * 2 ^ (64 : Int) < limit := by
  rw [Nat.cast_one, one_mul]
  exact zpow_lt_zpow_right₀ one_lt_two (by norm_num)

theorem timesPower_of_nonpos (fuel : Nat) (hx : x.magnitude ≤ (1 : Nat) * 2 ^ (64 : Int))
    (he : exponent ≤ 0) : ∃ y, timesPower x exponent fuel = some y := by
  induction fuel generalizing x exponent with
  | zero => exact ⟨x, rfl⟩
  | succ fuel ih =>
    rw [timesPower]
    by_cases near : exponent.natAbs ≤ maxPower
    · obtain ⟨p, hp, atLeast⟩ := power_exists near
      rw [if_pos near, hp]
      by_cases zero : 0 ≤ exponent
      · -- the power is one
        obtain rfl : exponent = 0 := by omega
        obtain ⟨q, hq, atMost⟩ := ofNat_le (n := 1) (m := 1) (e := 0) (by norm_num)
          (by norm_num [minExponent]) (by norm_num) (by
            rw [Nat.cast_one, one_mul]
            exact zpow_lt_zpow_right₀ one_lt_two (by norm_num))
        obtain rfl : p = q := Option.some.inj (hp.symm.trans hq)
        obtain ⟨z, hz, -⟩ := mul_le (x := x) (y := p) (m := 1) (e := 64) (by norm_num)
          (by norm_num [minExponent]) (by
            have : p.magnitude ≤ 1 := by simpa using atMost
            exact (mul_le_of_le_one_right x.magnitude_nonneg this).trans hx)
          two_pow_sixtyFour_lt_limit
        exact ⟨z, by simpa using hz⟩
      · obtain ⟨z, hz, -⟩ := div_le (by norm_num) (by norm_num [minExponent]) hx
          two_pow_sixtyFour_lt_limit atLeast
        exact ⟨z, by simpa [zero] using hz⟩
    · rw [if_neg near]
      split
      next => exact ⟨x, rfl⟩
      next =>
        obtain ⟨p, hp, atLeast⟩ := power_exists (le_refl maxPower)
        obtain ⟨z, hz, small⟩ := div_le (by norm_num) (by norm_num [minExponent]) hx
          two_pow_sixtyFour_lt_limit atLeast
        have down : exponent + maxPower ≤ 0 := by
          have : maxPower < exponent.natAbs := Nat.not_le.mp near
          omega
        obtain ⟨y, hy⟩ := ih small down
        rw [if_neg (by have : maxPower < exponent.natAbs := Nat.not_le.mp near; omega), hp]
        exact ⟨y, by simpa [hz] using hy⟩

theorem double?_of_nonpos (negative : Bool) (hs : significand < 2 ^ 64) (he : exponent ≤ 0) :
    ∃ y, double? negative significand exponent = some y := by
  obtain ⟨x, hx, small⟩ := ofNat_le (n := significand) (m := 1) (e := 64) (by norm_num)
    (by norm_num [minExponent]) (by exact_mod_cast (by omega : significand ≤ 1 * 2 ^ 64))
    two_pow_sixtyFour_lt_limit
  obtain ⟨y, hy⟩ := timesPower_of_nonpos 4 small he
  exact ⟨{ y with negative }, by simp [double?, hx, hy]⟩

theorem double?_of_mul {k : Nat} {p z : Binary64} (negative : Bool) (hk : k ≤ maxPower)
    (hx : ofNat significand = some x) (hp : ofNat (Nat.pow 10 k) = some p)
    (hz : x.mul p = some z) :
    double? negative significand k = some { z with negative } := by
  have power : ofNat (Nat.pow 10 (Int.natAbs k)) = some p := by rwa [Int.natAbs_natCast]
  have near : Int.natAbs k ≤ maxPower := by rwa [Int.natAbs_natCast]
  simp only [double?, hx, timesPower, if_pos near, power, Option.bind_eq_bind, Option.bind_some,
    Int.natCast_nonneg, if_true, hz]

theorem double?_of_le_291 {k : Nat} (negative : Bool) (hs : significand ≤ 10 ^ 17)
    (hk : k ≤ 291) : ∃ y, double? negative significand k = some y := by
  have sigBound : (significand : ℚ) ≤ ((5 ^ 17 : Nat) : ℚ) * 2 ^ (17 : Int) := by
    exact_mod_cast hs.trans (by decide +kernel : 10 ^ 17 ≤ 5 ^ 17 * 2 ^ 17)
  have powerBound : ((Nat.pow 10 k : Nat) : ℚ) ≤ ((13 : Nat) : ℚ) * 2 ^ (963 : Int) := by
    rw [Nat.pow_eq]
    have le : 10 ^ k ≤ 10 ^ 291 := pow_le_pow_right₀ (by norm_num) hk
    exact_mod_cast le.trans (by decide +kernel : 10 ^ 291 ≤ 13 * 2 ^ 963)
  have product : ((5 ^ 17 : Nat) : ℚ) * 2 ^ (17 : Int) * (((13 : Nat) : ℚ) * 2 ^ (963 : Int)) <
      middle := by
    rw [middle, limit, lt_sub_iff_add_lt]
    exact_mod_cast (by decide +kernel :
      5 ^ 17 * 2 ^ 17 * (13 * 2 ^ 963) + 2 ^ 970 < 2 ^ 1024)
  obtain ⟨x, hx, xLe⟩ := ofNat_le (by norm_num) (by norm_num [minExponent]) sigBound (by
    rw [limit]
    exact_mod_cast (by decide +kernel : 5 ^ 17 * 2 ^ 17 < 2 ^ 1024))
  obtain ⟨p, hp, pLe⟩ := ofNat_le (by norm_num) (by norm_num [minExponent]) powerBound (by
    rw [limit]
    exact_mod_cast (by decide +kernel : 13 * 2 ^ 963 < 2 ^ 1024))
  obtain ⟨z, hz⟩ := mul_of_lt_middle (x := x) (y := p)
    ((mul_le_mul xLe pLe p.magnitude_nonneg (by positivity)).trans_lt product)
  exact ⟨_, double?_of_mul negative (show k ≤ 308 by omega) hx hp hz⟩

/-- The middle between the two greatest doubles. -/
def safeBound : Nat := (2 ^ 54 - 3) * 2 ^ 970

/-- The greatest significand with a power of ten is a double, and it stays below the middle when it
is multiplied with that power as it is rounded. -/
theorem safeBound_table : ∀ i < 17,
    (safeBound / 10 ^ (292 + i) ≤ 2 ^ 53 ∨
      safeBound / 10 ^ (292 + i) ≤ 2 ^ 54 ∧ safeBound / 10 ^ (292 + i) % 2 = 0) ∧
    (ofNat (Nat.pow 10 (292 + i))).any (fun p => decide
      (safeBound / 10 ^ (292 + i) * p.numerator + 2 ^ 970 * p.denominator <
        2 ^ 1024 * p.denominator)) = true := by
  decide +kernel

theorem double?_of_le_safeBound {i : Nat} (negative : Bool) (hi : i < 17)
    (hs : significand * 10 ^ (292 + i) ≤ safeBound) :
    ∃ y, double? negative significand (292 + i : Nat) = some y := by
  obtain ⟨representable, below⟩ := safeBound_table i hi
  obtain ⟨p, hp, lt⟩ := (Option.any_eq_true _ _).mp below
  have sigLe : significand ≤ safeBound / 10 ^ (292 + i) :=
    (Nat.le_div_iff_mul_le (Nat.pow_pos (by decide))).mpr hs
  generalize safeBound / 10 ^ (292 + i) = greatest at representable lt sigLe
  have product : (greatest : ℚ) * p.magnitude < middle := by
    have pos : (0 : ℚ) < p.denominator := by exact_mod_cast p.denominator_pos
    have lt : greatest * p.numerator + 2 ^ 970 * p.denominator < 2 ^ 1024 * p.denominator :=
      of_decide_eq_true lt
    rw [← numerator_div_denominator, mul_div_assoc', div_lt_iff₀ pos, middle, limit, sub_mul,
      lt_sub_iff_add_lt]
    exact_mod_cast lt
  have small : (greatest : ℚ) < limit := by
    have lt : greatest < 2 ^ 1024 := by
      have : 2 ^ 54 < 2 ^ 1024 := by decide +kernel
      omega
    rw [limit]
    exact_mod_cast lt
  obtain ⟨x, hx, xLe⟩ : ∃ x, ofNat significand = some x ∧ x.magnitude ≤ greatest := by
    rcases representable with le | ⟨le, even⟩
    · simpa using ofNat_le (n := significand) (m := greatest) (e := 0) le
        (by norm_num [minExponent]) (by simpa using sigLe) (by simpa using small)
    · obtain ⟨half, rfl⟩ := Nat.dvd_of_mod_eq_zero even
      have twice : ((half : Nat) : ℚ) * 2 ^ (1 : Int) = (2 * half : Nat) := by
        push_cast
        ring
      have := ofNat_le (n := significand) (m := half) (e := 1) (by omega)
        (by norm_num [minExponent]) (by rw [twice]; exact_mod_cast sigLe) (by rwa [twice])
      rwa [twice] at this
  obtain ⟨z, hz⟩ := mul_of_lt_middle (x := x) (y := p)
    ((mul_le_mul_of_nonneg_right xLe p.magnitude_nonneg).trans_lt product)
  exact ⟨_, double?_of_mul negative (show 292 + i ≤ 308 by omega) hx hp hz⟩

def greatestSignificand : Nat := 17976931348623157

theorem double?_greatest (negative : Bool) :
    ∃ y, double? negative greatestSignificand (292 : Nat) = some y := by
  have some : (double? negative greatestSignificand (292 : Nat)).isSome = true := by
    cases negative <;> decide +kernel
  exact Option.isSome_iff_exists.mp some

end NumberLiteral

end CodeSurvey
