import RequestWriter.Decimal.Shortest
import Mathlib.Tactic.Linarith
import Mathlib.Tactic.Ring
import Mathlib.Tactic.FieldSimp
import Mathlib.Tactic.Positivity
import Mathlib.Tactic.NormNum
import Mathlib.Algebra.Order.Field.Rat
import Mathlib.Algebra.Order.Field.Power

/-!
# The interval of a double

The reals that round to a positive finite double `m * 2 ^ q` form an interval around it: half a unit
above, and half a unit below, or a quarter where the doubles below are twice as dense. The ends
belong to it when `m` is even. Everything about decimals that read back is stated by this interval
over the rationals; here the test on whole numbers is shown to decide it.
-/

namespace RequestWriter.Decimal

/-- How far the interval reaches below the double, in units `2 ^ q`. -/
def below (m : Nat) (q : Int) : ℚ := if m = twoTo 52 ∧ -1074 < q then 1 / 4 else 1 / 2

/-- The number lies in the interval of reals that round to `m * 2 ^ q`. -/
def Within (m : Nat) (q : Int) (x : ℚ) : Prop :=
  if m % 2 = 0 then (m - below m q) * 2 ^ q ≤ x ∧ x ≤ (m + 1 / 2) * 2 ^ q
  else (m - below m q) * 2 ^ q < x ∧ x < (m + 1 / 2) * 2 ^ q

/-- The shape of the significand and the power of a positive finite double. -/
structure Regular (m : Nat) (q : Int) : Prop where
  positive : 0 < m
  small : m < 2 ^ 53
  least : -1074 ≤ q
  full : -1074 < q → 2 ^ 52 ≤ m
  greatest : q ≤ 971

variable {m : Nat} {q e : Int} {x : ℚ}

theorem Within.le (h : Within m q x) :
    (m - below m q) * 2 ^ q ≤ x ∧ x ≤ (m + 1 / 2) * 2 ^ q := by
  unfold Within at h
  split at h
  · exact h
  · exact ⟨h.1.le, h.2.le⟩

theorem Within.of_lt (h : (m - below m q) * 2 ^ q < x) (h' : x < (m + 1 / 2) * 2 ^ q) :
    Within m q x := by
  unfold Within
  split
  · exact ⟨h.le, h'.le⟩
  · exact ⟨h, h'⟩

theorem below_le (m : Nat) (q : Int) : below m q ≤ 1 / 2 := by
  unfold below
  split <;> norm_num

theorem cast_tenTo (n : Nat) : ((tenTo n : Nat) : ℚ) = 10 ^ n := by
  exact_mod_cast rfl

theorem cast_twoTo (n : Nat) : ((twoTo n : Nat) : ℚ) = 2 ^ n := by
  exact_mod_cast rfl

/-- A power as a quotient of powers whose exponents are natural numbers. -/
theorem zpow_eq_div {b : ℚ} (hb : b ≠ 0) (n : Int) : b ^ n = b ^ n.toNat / b ^ (-n).toNat := by
  rw [eq_div_iff (pow_ne_zero _ hb), ← zpow_natCast, ← zpow_natCast, ← zpow_add₀ hb]
  congr 1
  omega

/-- A multiple of a quarter of `2 ^ q` and a decimal become whole numbers on one scale. -/
theorem exists_scale (u digits : Nat) (q e : Int) :
    ∃ scale : ℚ, 0 < scale ∧
      ((u * (tenTo (-e).toNat * twoTo q.toNat) : Nat) : ℚ) = u / 4 * 2 ^ q * scale ∧
      ((4 * (digits * tenTo e.toNat * twoTo (-q).toNat) : Nat) : ℚ) =
        digits * 10 ^ e * scale := by
  have ten : (0 : ℚ) < 10 ^ (-e).toNat := by positivity
  have two : (0 : ℚ) < 2 ^ (-q).toNat := by positivity
  refine ⟨4 * 10 ^ (-e).toNat * 2 ^ (-q).toNat, by positivity, ?_, ?_⟩
  · rw [zpow_eq_div (b := 2) two_ne_zero]
    push_cast [cast_tenTo, cast_twoTo]
    field_simp
  · rw [zpow_eq_div (b := 10) (by norm_num)]
    push_cast [cast_tenTo, cast_twoTo]
    field_simp

/-- Comparison with a multiple of a quarter of `2 ^ q`, in whole numbers. -/
theorem quarters_le_iff (u digits : Nat) (q e : Int) :
    u * (tenTo (-e).toNat * twoTo q.toNat) ≤ 4 * (digits * tenTo e.toNat * twoTo (-q).toNat) ↔
      (u : ℚ) / 4 * 2 ^ q ≤ digits * 10 ^ e := by
  obtain ⟨scale, pos, quarters, decimal⟩ := exists_scale u digits q e
  rw [← Nat.cast_le (α := ℚ), quarters, decimal, mul_le_mul_iff_left₀ pos]

theorem le_quarters_iff (u digits : Nat) (q e : Int) :
    4 * (digits * tenTo e.toNat * twoTo (-q).toNat) ≤ u * (tenTo (-e).toNat * twoTo q.toNat) ↔
      digits * 10 ^ e ≤ (u : ℚ) / 4 * 2 ^ q := by
  obtain ⟨scale, pos, quarters, decimal⟩ := exists_scale u digits q e
  rw [← Nat.cast_le (α := ℚ), quarters, decimal, mul_le_mul_iff_left₀ pos]

/-- The lower end in quarters. -/
theorem lower_quarters (pos : 0 < m) :
    ((4 * m - (if m = twoTo 52 ∧ -1074 < q then 1 else 2) : Nat) : ℚ) / 4 = m - below m q := by
  unfold below
  split <;> rw [Nat.cast_sub (by omega)] <;> push_cast <;> ring

theorem upper_quarters (m : Nat) : ((4 * m + 2 : Nat) : ℚ) / 4 = m + 1 / 2 := by
  push_cast
  ring

/-- The test of the printer decides the interval. -/
theorem inside_iff (pos : 0 < m) (digits : Nat) (e : Int) :
    inside m q digits e = true ↔ Within m q (digits * 10 ^ e) := by
  have low := quarters_le_iff (4 * m - (if m = twoTo 52 ∧ -1074 < q then 1 else 2)) digits q e
  have low' := le_quarters_iff (4 * m - (if m = twoTo 52 ∧ -1074 < q then 1 else 2)) digits q e
  have high := quarters_le_iff (4 * m + 2) digits q e
  have high' := le_quarters_iff (4 * m + 2) digits q e
  rw [lower_quarters pos] at low low'
  rw [upper_quarters] at high high'
  unfold inside Within
  dsimp only
  split
  · rw [Bool.and_eq_true, decide_eq_true_iff, decide_eq_true_iff, low, high']
  · rw [Bool.and_eq_true, decide_eq_true_iff, decide_eq_true_iff]
    exact and_congr (not_le.symm.trans (low'.not.trans not_le))
      (not_le.symm.trans (high.not.trans not_le))

end RequestWriter.Decimal
