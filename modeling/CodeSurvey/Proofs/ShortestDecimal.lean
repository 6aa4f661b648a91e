import CodeSurvey.Decimal.Shortest
import CodeSurvey.Proofs.PowersOfTen

namespace CodeSurvey.Binary64

variable {x : Binary64} {num den n d : Nat} {k : Int}

theorem ten_zpow_pos (k : Int) : (0 : ℚ) < 10 ^ k := zpow_pos (by norm_num) k

theorem digitCount_spec (h : 0 < n) : ∃ t, digitCount n = t + 1 ∧ 10 ^ t ≤ n ∧ n < 10 ^ (t + 1) := by
  have pos : 0 < digitCount n := Nat.length_toDigits_pos
  obtain ⟨t, eq⟩ : ∃ t, digitCount n = t + 1 := Nat.exists_eq_add_of_le' pos
  refine ⟨t, eq, Nat.not_lt.mp fun lt => ?_, ?_⟩
  · rcases Nat.eq_zero_or_pos t with rfl | more
    · exact absurd lt (Nat.not_lt.mpr h)
    · have fewer : digitCount n ≤ t := (Nat.length_toDigits_le_iff (by decide) more).mpr lt
      omega
  · exact (Nat.length_toDigits_le_iff (by decide) t.succ_pos).mp eq.le

theorem decimalExponent_spec (hn : 0 < num) (hd : 0 < den) :
    (10 : ℚ) ^ decimalExponent num den ≤ num / den ∧
      (num : ℚ) / den < 10 ^ (decimalExponent num den + 1) := by
  have hn' : (0 : ℚ) < num := by exact_mod_cast hn
  have hd' : (0 : ℚ) < den := by exact_mod_cast hd
  unfold decimalExponent
  split
  next le =>
    obtain ⟨t, count, low, high⟩ := digitCount_spec (Nat.div_pos le hd)
    rw [count, show ((t + 1 : Nat) : Int) - 1 = (t : Int) by omega, ← Nat.cast_add_one, zpow_natCast,
      zpow_natCast]
    have lowMul : 10 ^ t * den ≤ num := (Nat.le_div_iff_mul_le hd).mp low
    have highMul : num < 10 ^ (t + 1) * den := (Nat.div_lt_iff_lt_mul hd).mp high
    rw [le_div_iff₀ hd', div_lt_iff₀ hd']
    exact ⟨by exact_mod_cast lowMul, by exact_mod_cast highMul⟩
  next gt =>
    have up : (den + num - 1) / num - 1 = (den - 1) / num := by
      rw [show den + num - 1 = den - 1 + num by omega, Nat.add_div_right _ hn, Nat.add_sub_cancel]
    have below : (den - 1) / num * num < den := by
      have := Nat.div_mul_le_self (den - 1) num
      omega
    have above : den ≤ ((den - 1) / num + 1) * num := by
      have := Nat.lt_mul_div_succ (den - 1) hn
      rw [Nat.mul_comm]
      omega
    obtain ⟨t, count, low, high⟩ := digitCount_spec (n := (den - 1) / num) (Nat.div_pos (by omega) hn)
    rw [up, count, show -((t + 1 : Nat) : Int) + 1 = -(t : Int) by omega, zpow_neg, zpow_neg, zpow_natCast,
      zpow_natCast, inv_le_comm₀ (by positivity) (by positivity), inv_div,
      lt_inv_comm₀ (by positivity) (by positivity), inv_div, div_le_iff₀ hn', lt_div_iff₀ hn']
    have highMul : den ≤ 10 ^ (t + 1) * num := above.trans (Nat.mul_le_mul_right num high)
    have lowMul : 10 ^ t * num < den := (Nat.mul_le_mul_right num low).trans_lt below
    exact ⟨by exact_mod_cast highMul, by exact_mod_cast lowMul⟩

/-- The space between two points of a grid, in such parts that all bounds are whole numbers. -/
def gridUnit (x : Binary64) (k : Int) : Nat :=
  Nat.pow 10 k.toNat * 4 * Nat.pow 2 (-x.exponent).toNat

/-- A quarter of the last digit in these parts. -/
def gridQuarter (x : Binary64) (k : Int) : Nat :=
  Nat.pow 10 (-k).toNat * Nat.pow 2 x.exponent.toNat

theorem gridUnit_pos (x : Binary64) (k : Int) : 0 < x.gridUnit k :=
  Nat.mul_pos (Nat.mul_pos (Nat.pow_pos (by decide)) (by decide)) (Nat.two_pow_pos _)

theorem gridQuarter_pos (x : Binary64) (k : Int) : 0 < x.gridQuarter k :=
  Nat.mul_pos (Nat.pow_pos (by decide)) (Nat.two_pow_pos _)

theorem grid_ratio (x : Binary64) (k : Int) :
    (x.gridUnit k : ℚ) * 2 ^ x.exponent = 4 * 10 ^ k * x.gridQuarter k := by
  have ten : (10 : ℚ) ^ k.toNat = 10 ^ k * 10 ^ (-k).toNat := by
    rw [← zpow_toNat_div 10 (by norm_num) k, div_mul_cancel₀]
    positivity
  have two : (2 : ℚ) ^ x.exponent.toNat = 2 ^ x.exponent * 2 ^ (-x.exponent).toNat := by
    rw [← zpow_toNat_div 2 two_ne_zero x.exponent, div_mul_cancel₀]
    positivity
  simp only [gridUnit, gridQuarter, Nat.pow_eq, Nat.cast_mul, Nat.cast_pow, Nat.cast_ofNat, ten, two]
  ring

theorem grid_le_iff (x : Binary64) (k : Int) (d v : Nat) :
    d * x.gridUnit k ≤ v * x.gridQuarter k ↔ 4 * (d : ℚ) * 10 ^ k ≤ v * 2 ^ x.exponent := by
  have quarter : (0 : ℚ) < x.gridQuarter k := by exact_mod_cast x.gridQuarter_pos k
  have left : (d : ℚ) * x.gridUnit k * 2 ^ x.exponent = 4 * d * 10 ^ k * x.gridQuarter k := by
    rw [mul_assoc, grid_ratio]
    ring
  have right : (v : ℚ) * x.gridQuarter k * 2 ^ x.exponent = v * 2 ^ x.exponent * x.gridQuarter k := by
    ring
  rw [← Nat.cast_le (α := ℚ), ← mul_le_mul_iff_left₀ (two_zpow_pos x.exponent), Nat.cast_mul,
    Nat.cast_mul, left, right, mul_le_mul_iff_left₀ quarter]

/-- What stands before the left neighbour of a number on a grid. -/
def gridIndex (x : Binary64) (k : Int) : Nat := 4 * x.mantissa * x.gridQuarter k / x.gridUnit k

theorem gridIndex_mul_le (x : Binary64) (k : Int) :
    x.gridIndex k * x.gridUnit k ≤ 4 * x.mantissa * x.gridQuarter k :=
  Nat.div_mul_le_self _ _

theorem lt_gridIndex_succ_mul (x : Binary64) (k : Int) :
    4 * x.mantissa * x.gridQuarter k < (x.gridIndex k + 1) * x.gridUnit k := by
  rw [Nat.mul_comm (x.gridIndex k + 1)]
  exact Nat.lt_mul_div_succ _ (x.gridUnit_pos k)

theorem le_of_mem_onGrid (h : d ∈ x.onGrid k) :
    0 < d ∧ d ≤ x.gridIndex k + 1 ∧ d * x.gridUnit k ≤ (4 * x.mantissa + 2) * x.gridQuarter k := by
  obtain ⟨beside, fits⟩ := List.mem_filter.mp h
  obtain ⟨pos, inside⟩ := (Bool.and_eq_true _ _).mp fits
  refine ⟨of_decide_eq_true pos, ?_, ?_⟩
  · have : d = x.gridIndex k ∨ d = x.gridIndex k + 1 := by
      change d ∈ ite _ [x.gridIndex k, x.gridIndex k + 1] [x.gridIndex k + 1, x.gridIndex k] at beside
      split at beside <;> simpa [or_comm] using beside
    omega
  · change (if _ then _ && decide (d * x.gridUnit k ≤ (4 * x.mantissa + 2) * x.gridQuarter k)
      else _ && decide (d * x.gridUnit k < (4 * x.mantissa + 2) * x.gridQuarter k)) = true at inside
    split at inside
    · exact of_decide_eq_true ((Bool.and_eq_true _ _).mp inside).2
    · exact (of_decide_eq_true ((Bool.and_eq_true _ _).mp inside).2).le

theorem mem_onGrid (hd : d = x.gridIndex k ∨ d = x.gridIndex k + 1) (pos : 0 < d)
    (low : x.bounds.1 * x.gridQuarter k < d * x.gridUnit k)
    (high : d * x.gridUnit k < (4 * x.mantissa + 2) * x.gridQuarter k) : d ∈ x.onGrid k := by
  refine List.mem_filter.mpr ⟨?_, (Bool.and_eq_true _ _).mpr ⟨decide_eq_true pos, ?_⟩⟩
  · change d ∈ ite _ [x.gridIndex k, x.gridIndex k + 1] [x.gridIndex k + 1, x.gridIndex k]
    split <;> simpa [or_comm] using hd
  · change (if _ then decide (x.bounds.1 * x.gridQuarter k ≤ d * x.gridUnit k) &&
        decide (d * x.gridUnit k ≤ (4 * x.mantissa + 2) * x.gridQuarter k)
      else decide (x.bounds.1 * x.gridQuarter k < d * x.gridUnit k) &&
        decide (d * x.gridUnit k < (4 * x.mantissa + 2) * x.gridQuarter k)) = true
    split
    · simp [low.le, high.le]
    · simp [low, high]

/-- Seventeen digits are enough: such a grid is narrower than what rounds to the number. -/
theorem onGrid_ne_nil (hm : x.mantissa < 2 ^ 53)
    (fine : 10 ^ 16 * x.gridUnit k ≤ 4 * x.mantissa * x.gridQuarter k) : x.onGrid k ≠ [] := by
  have quarter := x.gridQuarter_pos k
  have left := x.gridIndex_mul_le k
  have right := x.lt_gridIndex_succ_mul k
  have first : 0 < x.gridIndex k := Nat.div_pos (by omega) (x.gridUnit_pos k)
  have high : (4 * x.mantissa + 2) * x.gridQuarter k =
      4 * x.mantissa * x.gridQuarter k + 2 * x.gridQuarter k := by ring
  have next : (x.gridIndex k + 1) * x.gridUnit k = x.gridIndex k * x.gridUnit k + x.gridUnit k := by
    ring
  have lowLe : x.bounds.1 * x.gridQuarter k ≤ 4 * x.mantissa * x.gridQuarter k :=
    Nat.mul_le_mul_right _ (Nat.sub_le _ _)
  by_cases near : (x.gridIndex k + 1) * x.gridUnit k < (4 * x.mantissa + 2) * x.gridQuarter k
  · exact List.ne_nil_of_mem (mem_onGrid (.inr rfl) (by omega) (lowLe.trans_lt right) near)
  · -- the right neighbour is too far away, and then the lower bound is not the close one
    have wide : 2 * x.gridQuarter k ≤ x.gridUnit k := by omega
    have notNarrow : ¬(2 * x.mantissa = mantissaBound ∧ minExponent < x.exponent) := by
      rintro ⟨half, -⟩
      have : x.mantissa = 2 ^ 52 := by
        have : mantissaBound = 2 * 2 ^ 52 := rfl
        omega
      rw [this] at fine
      omega
    have low : x.bounds.1 = 4 * x.mantissa - 2 := by
      simp only [bounds, Bool.and_eq_true, decide_eq_true_eq, if_neg notNarrow]
    have unit : x.gridUnit k < 4 * x.gridQuarter k := by
      have : 4 * x.mantissa * x.gridQuarter k < 10 ^ 16 * (4 * x.gridQuarter k) := by
        rw [← Nat.mul_assoc]
        exact Nat.mul_lt_mul_of_pos_right (by omega) quarter
      omega
    have mantissa : 0 < x.mantissa := by
      refine Nat.pos_of_ne_zero fun zero => ?_
      rw [zero] at fine
      have := x.gridUnit_pos k
      omega
    have lowEq : (4 * x.mantissa - 2) * x.gridQuarter k + 2 * x.gridQuarter k =
        4 * x.mantissa * x.gridQuarter k := by
      rw [← Nat.add_mul, Nat.sub_add_cancel (by omega)]
    refine List.ne_nil_of_mem (mem_onGrid (.inl rfl) first ?_ (by omega))
    rw [low]
    omega

/-- A decimal that is no more than what rounds to a number, with 17 digits at most or the power of
ten after these. -/
structure Fits (x : Binary64) (d : Decimal) : Prop where
  pos : 0 < d.digits
  small : d.digits ≤ 10 ^ 17
  le : 4 * (d.digits : ℚ) * 10 ^ d.exponent ≤ (4 * x.mantissa + 2 : Nat) * 2 ^ x.exponent

theorem Fits.strip {dec : Decimal} (h : Fits x dec) (fuel : Nat) : Fits x (strip fuel dec) := by
  induction fuel generalizing dec with
  | zero => exact h
  | succ fuel ih =>
    rw [Binary64.strip]
    split
    next more =>
      obtain ⟨-, zero⟩ : 0 < dec.digits ∧ dec.digits % 10 = 0 := by simpa using more
      obtain ⟨tenth, eq⟩ := Nat.dvd_of_mod_eq_zero zero
      have pos := h.pos
      have small := h.small
      have le := h.le
      rw [eq] at pos small le
      rw [eq, Nat.mul_div_cancel_left _ (by decide)]
      refine ih ⟨by simpa using pos, by dsimp only; omega, ?_⟩
      calc 4 * (tenth : ℚ) * 10 ^ (dec.exponent + 1)
          = 4 * ((10 * tenth : Nat) : ℚ) * 10 ^ dec.exponent := by
            rw [zpow_add_one₀ (by norm_num)]
            push_cast
            ring
        _ ≤ _ := le
    next => exact h

variable {first : Int}

theorem Fits.of_onGrid {digits : Nat} (hd : digits ≤ 17)
    (high : x.magnitude < 10 ^ (first + 1)) (h : d ∈ x.onGrid (first - digits + 1)) :
    Fits x ⟨d, first - digits + 1⟩ := by
  obtain ⟨pos, index, bounded⟩ := le_of_mem_onGrid h
  refine ⟨pos, ?_, (grid_le_iff _ _ _ _).mp bounded⟩
  have left := (grid_le_iff _ _ _ _).mp (x.gridIndex_mul_le (first - digits + 1))
  generalize x.gridIndex (first - digits + 1) = i at index left
  have lt : (i : ℚ) < 10 ^ digits := by
    have power : (10 : ℚ) ^ (first + 1) = 10 ^ digits * 10 ^ (first - digits + 1) := by
      rw [← zpow_natCast, ← zpow_add₀ (by norm_num)]
      congr 1
      omega
    have le : (i : ℚ) * 10 ^ (first - digits + 1) ≤ x.magnitude := by
      rw [magnitude]
      push_cast at left
      linarith
    rw [power] at high
    exact lt_of_mul_lt_mul_right (le.trans_lt high) (ten_zpow_pos _).le
  have : i < 10 ^ digits := by exact_mod_cast lt
  have : 10 ^ digits ≤ 10 ^ 17 := Nat.pow_le_pow_right (by decide) hd
  change d ≤ 10 ^ 17
  omega

theorem Fits.shortestFrom (hm : x.mantissa < 2 ^ 53) (low : (10 : ℚ) ^ first ≤ x.magnitude)
    (high : x.magnitude < 10 ^ (first + 1)) {fuel digits : Nat} (enough : 18 ≤ fuel + digits)
    (hd : digits ≤ 17) : Fits x (x.shortestFrom first fuel digits) := by
  induction fuel generalizing digits with
  | zero => omega
  | succ fuel ih =>
    rw [Binary64.shortestFrom]
    split
    next d rest found => exact .strip (.of_onGrid hd high (found ▸ List.mem_cons_self)) _
    next none =>
      have notLast : digits ≠ 17 := by
        rintro rfl
        refine onGrid_ne_nil hm ((grid_le_iff _ _ _ _).mpr ?_) none
        have power : (10 : ℚ) ^ first = (10 ^ 16 : Nat) * 10 ^ (first - (17 : Nat) + 1) := by
          rw [Nat.cast_pow, ← zpow_natCast, Nat.cast_ofNat, ← zpow_add₀ (by norm_num)]
          congr 1
          omega
        rw [power, magnitude] at low
        push_cast at low ⊢
        linarith
      exact ih (by omega) (by omega)

theorem Fits.shortest (hm : x.mantissa < 2 ^ 53) (pos : 0 < x.mantissa) : Fits x x.shortest := by
  obtain ⟨low, high⟩ := decimalExponent_spec (numerator_pos pos) x.denominator_pos
  rw [numerator_div_denominator] at low high
  exact .shortestFrom hm low high (by decide) (by decide)

end CodeSurvey.Binary64

namespace CodeSurvey.NumberLiteral

open Binary64

variable {x : Binary64} {k : Nat}

theorem le_safeBound (hx : x.Finite) (notGreatest : ¬(x.mantissa = 2 ^ 53 - 1 ∧ x.exponent = 971))
    {digits : Nat} (h : Fits x ⟨digits, k⟩) : digits * 10 ^ k ≤ safeBound := by
  have hm := hx.mantissa
  have he := hx.exponent
  have bound : ((4 * x.mantissa + 2 : Nat) : ℚ) * 2 ^ x.exponent ≤ (4 * safeBound : Nat) := by
    by_cases last : x.exponent = 971
    · have : 4 * x.mantissa + 2 ≤ 2 ^ 55 - 6 := by omega
      rw [last]
      exact_mod_cast (Nat.mul_le_mul_right (2 ^ 971) this).trans
        (by decide +kernel : (2 ^ 55 - 6) * 2 ^ 971 ≤ 4 * safeBound)
    · have power : (2 : ℚ) ^ x.exponent ≤ 2 ^ (970 : Int) :=
        zpow_le_zpow_right₀ one_le_two (by omega)
      have : 4 * x.mantissa + 2 ≤ 2 ^ 55 := by omega
      have product : ((4 * x.mantissa + 2 : Nat) : ℚ) * 2 ^ x.exponent ≤
          ((2 ^ 55 : Nat) : ℚ) * 2 ^ (970 : Int) :=
        mul_le_mul (by exact_mod_cast this) power (two_zpow_pos _).le (Nat.cast_nonneg _)
      refine product.trans ?_
      exact_mod_cast (by decide +kernel : 2 ^ 55 * 2 ^ 970 ≤ 4 * safeBound)
  have le : ((4 * (digits * 10 ^ k) : Nat) : ℚ) ≤ (4 * safeBound : Nat) := by
    refine le_trans (le_of_eq ?_) (h.le.trans bound)
    rw [zpow_natCast]
    push_cast
    ring
  exact Nat.le_of_mul_le_mul_left (by exact_mod_cast le) (by decide : 0 < 4)

theorem double?_shortest (negative : Bool) (hx : x.Finite) (pos : 0 < x.mantissa) :
    ∃ y, double? negative x.shortest.digits x.shortest.exponent = some y := by
  have fits := Fits.shortest hx.mantissa pos
  by_cases greatest : x.mantissa = 2 ^ 53 - 1 ∧ x.exponent = 971
  · have shortest : x.shortest = ⟨greatestSignificand, 292⟩ := by
      obtain ⟨sign, mantissa, exponent⟩ := x
      obtain ⟨rfl, rfl⟩ := greatest
      cases sign <;> decide +kernel
    rw [shortest]
    exact double?_greatest negative
  · generalize x.shortest = d at fits
    obtain ⟨digits, exponent⟩ := d
    have small : digits ≤ 10 ^ 17 := fits.small
    rcases Int.le_total exponent 0 with down | up
    · exact double?_of_nonpos negative (show digits < 2 ^ 64 by omega) down
    · obtain ⟨k, rfl⟩ := Int.eq_ofNat_of_zero_le up
      by_cases near : k ≤ 291
      · exact double?_of_le_291 negative small near
      · obtain ⟨i, rfl⟩ : ∃ i, k = 292 + i := ⟨k - 292, by omega⟩
        have le := le_safeBound hx greatest fits
        refine double?_of_le_safeBound negative (Nat.not_le.mp fun large => ?_) le
        have power : 10 ^ 309 ≤ digits * 10 ^ (292 + i) :=
          calc 10 ^ 309 ≤ 10 ^ (292 + i) := pow_le_pow_right₀ (by norm_num) (by omega)
            _ ≤ digits * 10 ^ (292 + i) := Nat.le_mul_of_pos_left _ fits.pos
        exact absurd (power.trans le) (by decide +kernel)

end CodeSurvey.NumberLiteral
