import RequestWriter.Proofs.Decimal.Rounding

/-!
# Shortest decimals read back

The search for the shortest decimal ends with a decimal in the interval of the double. Every
neighbour that it accepts is one; and on the grid of seventeen digits a neighbour is always
accepted, because the distance of two points of the grid is less than the width of the interval.
-/

namespace RequestWriter.Decimal

variable {m : Nat} {q e : Int}

theorem inUnitsOfTen_spec (m : Nat) (q e : Int) :
    0 < (inUnitsOfTen m q e).2 ∧
      ((inUnitsOfTen m q e).1 : ℚ) / (inUnitsOfTen m q e).2 = m * 2 ^ q / 10 ^ e := by
  have ten : ∀ n, 0 < tenTo n := fun n => Nat.pow_pos (by decide)
  have two : ∀ n, 0 < twoTo n := fun n => Nat.two_pow_pos n
  refine ⟨Nat.mul_pos (two _) (ten _), ?_⟩
  rw [zpow_eq_div (b := 2) two_ne_zero, zpow_eq_div (b := 10) (by norm_num)]
  unfold inUnitsOfTen
  push_cast [cast_tenTo, cast_twoTo]
  field_simp

/-- A neighbour that is taken lies in the interval. -/
theorem neighbour?_sound (pos : 0 < m) {digits : Nat} (h : neighbour? m q e = some digits) :
    0 < digits ∧ Within m q (digits * 10 ^ e) := by
  unfold neighbour? at h
  dsimp only at h
  generalize (inUnitsOfTen m q e).1 / (inUnitsOfTen m q e).2 = low at h
  have lowSound : (decide (0 < low) && inside m q low e) = true →
      0 < low ∧ Within m q (low * 10 ^ e) := by
    rw [Bool.and_eq_true, decide_eq_true_iff, inside_iff pos]
    exact id
  have highSound : inside m q (low + 1) e = true →
      0 < low + 1 ∧ Within m q ((low + 1 : Nat) * 10 ^ e) := by
    rw [inside_iff pos]
    exact fun within => ⟨Nat.succ_pos low, within⟩
  split at h
  · cases h
  · next left _ =>
    cases h
    exact lowSound left
  · next _ right =>
    cases h
    exact highSound right
  · next left right =>
    cases h
    split
    · exact lowSound left
    · exact highSound right

/-- The double lies between its neighbours on a grid. -/
theorem between (m : Nat) (q e : Int) :
    (((inUnitsOfTen m q e).1 / (inUnitsOfTen m q e).2 : Nat) : ℚ) * 10 ^ e ≤ m * 2 ^ q ∧
      (m : ℚ) * 2 ^ q <
        (((inUnitsOfTen m q e).1 / (inUnitsOfTen m q e).2 + 1 : Nat) : ℚ) * 10 ^ e := by
  obtain ⟨pos, value⟩ := inUnitsOfTen_spec m q e
  have posQ : (0 : ℚ) < (inUnitsOfTen m q e).2 := by exact_mod_cast pos
  have unit : (0 : ℚ) < 10 ^ e := zpow_pos (by norm_num) _
  rw [← le_div_iff₀ unit, ← div_lt_iff₀ unit, ← value, le_div_iff₀ posQ, div_lt_iff₀ posQ]
  constructor
  · exact_mod_cast Nat.div_mul_le_self _ _
  · exact_mod_cast (Nat.div_lt_iff_lt_mul pos).mp (Nat.lt_succ_self _)

/-- On a grid with seventeen digits one of the two neighbours lies in the interval. -/
theorem neighbour_within (regular : Regular m q) {low : Nat}
    (fine : 10 ^ 16 * 10 ^ e ≤ (m : ℚ) * 2 ^ q)
    (atLeast : (low : ℚ) * 10 ^ e ≤ m * 2 ^ q) (less : (m : ℚ) * 2 ^ q < (low + 1 : Nat) * 10 ^ e) :
    0 < low ∧ Within m q (low * 10 ^ e) ∨ Within m q ((low + 1 : Nat) * 10 ^ e) := by
  have ten : (0 : ℚ) < 10 ^ e := zpow_pos (by norm_num) _
  have two : (0 : ℚ) < 2 ^ q := zpow_pos two_pos _
  have small : (m : ℚ) < 2 ^ 53 := by exact_mod_cast regular.small
  push_cast at less ⊢
  have positive : 0 < low := by
    have : (10 : ℚ) ^ 16 < low + 1 := lt_of_mul_lt_mul_right (fine.trans_lt less) ten.le
    have : 10 ^ 16 < low + 1 := by exact_mod_cast this
    omega
  by_cases dense : m = twoTo 52 ∧ -1074 < q
  · right
    have reach : below m q = 1 / 4 := if_pos dense
    have least : (m : ℚ) = 2 ^ 52 := by exact_mod_cast dense.1
    refine .of_lt ?_ ?_
    · rw [reach]
      linarith
    · rw [least] at fine atLeast ⊢
      linarith
  · have reach : below m q = 1 / 2 := if_neg dense
    have narrow : (10 : ℚ) ^ e < 2 ^ q := by
      have : 10 ^ 16 * 10 ^ e < (10 : ℚ) ^ 16 * 2 ^ q :=
        fine.trans_lt (mul_lt_mul_of_pos_right (by linarith) two)
      exact lt_of_mul_lt_mul_left this (by norm_num)
    by_cases near : (m : ℚ) * 2 ^ q - low * 10 ^ e < 2 ^ q / 2
    · refine .inl ⟨positive, .of_lt ?_ ?_⟩
      · rw [reach]
        linarith
      · linarith
    · refine .inr (.of_lt ?_ ?_)
      · rw [reach]
        linarith
      · linarith

theorem neighbour?_ne_none (regular : Regular m q) (fine : 10 ^ 16 * 10 ^ e ≤ (m : ℚ) * 2 ^ q) :
    neighbour? m q e ≠ none := by
  obtain ⟨atLeast, less⟩ := between m q e
  have within := neighbour_within regular fine atLeast less
  rw [← inside_iff regular.positive, ← inside_iff regular.positive] at within
  unfold neighbour?
  dsimp only
  split
  · next left right =>
    rcases within with ⟨pos, h⟩ | h
    · simp [pos, h] at left
    · simp [h] at right
  all_goals exact Option.some_ne_none _

/-- Powers of two bases compare as their exponents do, once one pair of powers compares. -/
theorem pow_le_pow_of_mul_le {a b i j k n : Nat} (one : 1 ≤ a) (pos : j ≠ 0) (base : a ^ i ≤ b ^ j)
    (le : k * j ≤ i * n) : a ^ k ≤ b ^ n := by
  refine (Nat.pow_le_pow_iff_left pos).mp ?_
  calc (a ^ k) ^ j = a ^ (k * j) := (pow_mul a k j).symm
    _ ≤ a ^ (i * n) := Nat.pow_le_pow_right one le
    _ = (a ^ i) ^ n := pow_mul a i n
    _ ≤ (b ^ j) ^ n := Nat.pow_le_pow_left base n
    _ = (b ^ n) ^ j := by rw [← pow_mul, ← pow_mul, Nat.mul_comm]

/-- The guess of the place from the number of bits is not too large. Its slope is a little more than
the logarithm of two; the bounds on the bits keep the difference below one place. -/
theorem guess_le {bits : Int} (least : -1074 ≤ bits) (greatest : bits ≤ 1024) :
    (10 : ℚ) ^ (Int.fdiv (bits * 30103) 100000 - 1) ≤ 2 ^ bits := by
  obtain ⟨guess, guessEq⟩ : ∃ g, g = Int.fdiv (bits * 30103) 100000 := ⟨_, rfl⟩
  have bound : guess * 100000 ≤ bits * 30103 := by
    rw [guessEq, Int.fdiv_eq_ediv_of_nonneg _ (by decide)]
    omega
  rw [← guessEq]
  rcases le_or_gt 0 bits with nonneg | negative
  · obtain ⟨n, rfl⟩ := Int.eq_ofNat_of_zero_le nonneg
    have powers : 10 ^ (guess - 1).toNat ≤ 2 ^ n :=
      pow_le_pow_of_mul_le (i := 59) (j := 196) (by decide) (by decide) (by decide +kernel)
        (by omega)
    calc (10 : ℚ) ^ (guess - 1) ≤ 10 ^ ((guess - 1).toNat : Int) :=
          zpow_le_zpow_right₀ (by norm_num) (Int.self_le_toNat _)
      _ ≤ 2 ^ (n : Int) := by
          rw [zpow_natCast, zpow_natCast]
          exact_mod_cast powers
  · obtain ⟨n, rfl⟩ : ∃ n : Nat, bits = -n := ⟨(-bits).toNat, by omega⟩
    obtain ⟨k, rfl⟩ : ∃ k : Nat, guess = 1 - k := ⟨(1 - guess).toNat, by omega⟩
    have powers : 2 ^ n ≤ 10 ^ k :=
      pow_le_pow_of_mul_le (i := 93) (j := 28) (by decide) (by decide) (by decide +kernel)
        (by omega)
    rw [show (1 - (k : Int)) - 1 = -k by ring, zpow_neg, zpow_neg, zpow_natCast, zpow_natCast]
    exact inv_anti₀ (by positivity) (by exact_mod_cast powers)

/-- The number of bits bounds a regular double from below. -/
theorem bits_le (regular : Regular m q) :
    -1074 ≤ (m.log2 : Int) + q ∧ (m.log2 : Int) + q ≤ 1024 ∧
      (2 : ℚ) ^ ((m.log2 : Int) + q) ≤ m * 2 ^ q := by
  have least := regular.least
  have greatest := regular.greatest
  have bits : m.log2 < 53 := (Nat.log2_lt regular.positive.ne').mpr regular.small
  have low : (2 : ℚ) ^ m.log2 ≤ m := by exact_mod_cast Nat.log2_self_le regular.positive.ne'
  refine ⟨by omega, by omega, ?_⟩
  rw [zpow_add₀ two_ne_zero, zpow_natCast]
  exact mul_le_mul_of_nonneg_right low (zpow_pos two_pos _).le

/-- The place of the first digit is not taken too large. -/
theorem place_le (regular : Regular m q) : (10 : ℚ) ^ (place m q - 1) ≤ m * 2 ^ q := by
  obtain ⟨least, greatest, bits⟩ := bits_le regular
  have guessed := (guess_le least greatest).trans bits
  unfold place
  dsimp only
  rw [Int.ofNat_eq_natCast]
  generalize Int.fdiv (((m.log2 : Int) + q) * 30103) 100000 = guess at *
  obtain ⟨pos, value⟩ := inUnitsOfTen_spec m q guess
  have posQ : (0 : ℚ) < (inUnitsOfTen m q guess).2 := by exact_mod_cast pos
  have unit : (0 : ℚ) < 10 ^ guess := zpow_pos (by norm_num) _
  split
  · exact guessed
  · next atLeast =>
    rw [Nat.not_lt] at atLeast
    split
    · rw [add_sub_cancel_right, ← one_le_div unit, ← value, one_le_div posQ]
      exact_mod_cast atLeast
    · next larger =>
      rw [Nat.not_lt] at larger
      have step : (10 : ℚ) ^ (guess + 2 - 1) = 10 * 10 ^ guess := by
        rw [← zpow_one_add₀ (by norm_num)]
        congr 1
        ring
      rw [step, ← le_div_iff₀ unit, ← value, le_div_iff₀ posQ]
      exact_mod_cast larger

/-- The search ends on one of its grids. -/
theorem search_sound (pos : 0 < m) {top : Int} (last : neighbour? m q (top - 17) ≠ none)
    (fuel : Nat) :
    0 < (search m q top (fuel + 1)).digits ∧
      Within m q
        ((search m q top (fuel + 1)).digits * 10 ^ (search m q top (fuel + 1)).exponent) := by
  induction fuel with
  | zero =>
    rw [search]
    split
    · next taken => exact neighbour?_sound pos taken
    · next none => exact absurd none last
  | succ fuel ih =>
    rw [search]
    split
    · next taken => exact neighbour?_sound pos taken
    · exact ih

theorem trim_sound (fuel : Nat) {d : Digits} (pos : 0 < d.digits) :
    0 < (trim fuel d).digits ∧
      ((trim fuel d).digits : ℚ) * 10 ^ (trim fuel d).exponent = d.digits * 10 ^ d.exponent := by
  induction fuel generalizing d with
  | zero => exact ⟨pos, rfl⟩
  | succ fuel ih =>
    rw [trim]
    split
    · next zero =>
      have split : d.digits = 10 * (d.digits / 10) := by omega
      obtain ⟨pos, value⟩ := ih (d := ⟨d.digits / 10, d.exponent + 1⟩) (by dsimp only; omega)
      refine ⟨pos, value.trans ?_⟩
      have digits : (d.digits : ℚ) = 10 * (d.digits / 10 : Nat) := by exact_mod_cast split
      dsimp only
      rw [digits, zpow_add_one₀ (by norm_num)]
      ring
    · exact ⟨pos, rfl⟩

/-- The shortest decimal of a finite double lies in its interval. -/
theorem shortest_within {d : Double} (finite : d.isFinite = true) (nonzero : d.isZero = false) :
    0 < (shortest d).digits ∧
      Within d.significand d.power ((shortest d).digits * 10 ^ (shortest d).exponent) := by
  have regular := Double.regular finite nonzero
  have fine : 10 ^ 16 * (10 : ℚ) ^ (place d.significand d.power - 17) ≤
      d.significand * 2 ^ d.power := by
    refine le_trans (le_of_eq ?_) (place_le regular)
    rw [← zpow_natCast, ← zpow_add₀ (by norm_num)]
    congr 1
    push_cast
    ring
  obtain ⟨pos, within⟩ := search_sound regular.positive (neighbour?_ne_none regular fine) 16
  obtain ⟨pos, value⟩ := trim_sound 17 pos
  unfold shortest
  rw [if_neg (by simp [nonzero])]
  exact ⟨pos, value ▸ within⟩

end RequestWriter.Decimal
