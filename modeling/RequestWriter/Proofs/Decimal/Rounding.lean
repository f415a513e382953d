import RequestWriter.Proofs.Decimal.Interval

/-!
# Rounding to the nearest double

A quotient in the interval of a double is rounded to that double, and so is a decimal. The power
that is chosen for the quotient is the one that the quotient itself has; only where the quotient
lies just below a power of two it is less than the power of the double, and then the significand
rounds up to `2 ^ 53` and is carried.
-/

namespace RequestWriter.Double

open Decimal

variable {num den m : Nat} {q : Int}

/-- The whole number within half a unit of a quotient, the even one at a tie. -/
theorem roundQuotient_eq (pos : 0 < den) (low : (m : ℚ) - 1 / 2 ≤ num / den)
    (high : (num : ℚ) / den ≤ m + 1 / 2)
    (odd : m % 2 = 1 → (m : ℚ) - 1 / 2 < num / den ∧ (num : ℚ) / den < m + 1 / 2) :
    roundQuotient num den = m := by
  have posQ : (0 : ℚ) < den := by exact_mod_cast pos
  have low : 2 * m * den ≤ 2 * num + den := by
    rw [le_div_iff₀ posQ] at low
    exact_mod_cast (show (2 * m * den : ℚ) ≤ 2 * num + den by linarith)
  have high : 2 * num ≤ (2 * m + 1) * den := by
    rw [div_le_iff₀ posQ] at high
    exact_mod_cast (show (2 * num : ℚ) ≤ (2 * m + 1) * den by linarith)
  have odd : m % 2 = 1 → 2 * m * den < 2 * num + den ∧ 2 * num < (2 * m + 1) * den := by
    intro isOdd
    obtain ⟨low, high⟩ := odd isOdd
    rw [lt_div_iff₀ posQ] at low
    rw [div_lt_iff₀ posQ] at high
    exact ⟨by exact_mod_cast (show (2 * m * den : ℚ) < 2 * num + den by linarith),
      by exact_mod_cast (show (2 * num : ℚ) < (2 * m + 1) * den by linarith)⟩
  have split := Nat.div_add_mod num den
  have bound := Nat.mod_lt num pos
  unfold roundQuotient
  dsimp only
  generalize num / den = l at *
  generalize num % den = r at *
  subst split
  have upper : m ≤ l + 1 := by
    by_contra far
    have : (l + 2) * den ≤ m * den := Nat.mul_le_mul_right den (by omega)
    nlinarith
  have lower : l ≤ m := by
    by_contra far
    have : (m + 1) * den ≤ l * den := Nat.mul_le_mul_right den (by omega)
    nlinarith
  obtain rfl | rfl : m = l ∨ m = l + 1 := by omega
  · rw [if_pos]
    have half : 2 * r ≤ den := by linarith
    by_contra no
    have isOdd : m % 2 = 1 := by omega
    have := (odd isOdd).2
    have tie : 2 * r = den := by omega
    linarith
  · rw [if_neg]
    have half : den ≤ 2 * r := by linarith
    intro yes
    have isOdd : (l + 1) % 2 = 1 := by omega
    have := (odd isOdd).1
    have tie : 2 * r = den := by omega
    linarith

/-- The quotient in units of a power of two. -/
theorem scaled_spec (num : Nat) (pos : 0 < den) (q : Int) :
    0 < (scaled num den q).2 ∧
      ((scaled num den q).1 : ℚ) / (scaled num den q).2 = num / den / 2 ^ q := by
  have two : 0 < twoTo q.toNat := Nat.two_pow_pos _
  unfold scaled
  split
  · next nonneg =>
    refine ⟨Nat.mul_pos pos two, ?_⟩
    have power : (2 : ℚ) ^ q = 2 ^ q.toNat := by
      rw [← zpow_natCast, Int.toNat_of_nonneg nonneg]
    rw [power]
    push_cast [cast_twoTo]
    rw [div_div]
  · next negative =>
    refine ⟨pos, ?_⟩
    have power : (2 : ℚ) ^ q = (2 ^ (-q).toNat)⁻¹ := by
      rw [← zpow_natCast, ← zpow_neg, Int.toNat_of_nonneg (by omega), neg_neg]
    rw [power, div_inv_eq_mul]
    push_cast [cast_twoTo]
    ring

/-- A quotient between the powers of two that the bits of its parts give. -/
theorem log2_bounds (num_pos : 0 < num) (den_pos : 0 < den) :
    (2 : ℚ) ^ ((num.log2 : Int) - den.log2 - 1) < num / den ∧
      (num : ℚ) / den < 2 ^ ((num.log2 : Int) - den.log2 + 1) := by
  have numQ : (0 : ℚ) < num := by exact_mod_cast num_pos
  have denQ : (0 : ℚ) < den := by exact_mod_cast den_pos
  have numLow : (2 : ℚ) ^ num.log2 ≤ num := by exact_mod_cast Nat.log2_self_le num_pos.ne'
  have numHigh : (num : ℚ) < 2 ^ (num.log2 + 1) := by exact_mod_cast Nat.lt_log2_self
  have denLow : (2 : ℚ) ^ den.log2 ≤ den := by exact_mod_cast Nat.log2_self_le den_pos.ne'
  have denHigh : (den : ℚ) < 2 ^ (den.log2 + 1) := by exact_mod_cast Nat.lt_log2_self
  constructor
  · calc (2 : ℚ) ^ ((num.log2 : Int) - den.log2 - 1) = 2 ^ num.log2 / 2 ^ (den.log2 + 1) := by
          rw [← zpow_natCast, ← zpow_natCast, ← zpow_sub₀ two_ne_zero]
          congr 1
          push_cast
          ring
      _ < num / den := by
          rw [div_lt_div_iff₀ (by positivity) denQ]
          exact mul_lt_mul' numLow denHigh (by positivity) numQ
  · calc (num : ℚ) / den < 2 ^ (num.log2 + 1) / 2 ^ den.log2 := by
          rw [div_lt_div_iff₀ denQ (by positivity)]
          exact mul_lt_mul numHigh denLow (by positivity) (by positivity)
      _ = 2 ^ ((num.log2 : Int) - den.log2 + 1) := by
          rw [← zpow_natCast, ← zpow_natCast, ← zpow_sub₀ two_ne_zero]
          congr 1
          push_cast
          ring

/-- The power that the bits of numerator and denominator suggest. -/
def guess (num den : Nat) : Int := max ((num.log2 : Int) - den.log2 - 53) (-1074)

/-- The power under which a quotient is rounded. -/
def chosen (num den : Nat) : Int :=
  if twoTo 53 ≤ (scaled num den (guess num den)).1 / (scaled num den (guess num den)).2 then
    guess num den + 1
  else guess num den

theorem ofQuotient_eq (negative : Bool) (num_pos : 0 < num) :
    ofQuotient negative num den = ofMagnitude negative
      (min ((chosen num den + 1074).toNat * twoTo 52 +
        roundQuotient (scaled num den (chosen num den)).1 (scaled num den (chosen num den)).2)
          infinityBits) := by
  unfold ofQuotient
  rw [if_neg num_pos.ne']
  rfl

theorem guess_spec (num_pos : 0 < num) (den_pos : 0 < den) :
    (num : ℚ) / den / 2 ^ guess num den < 2 ^ 54 ∧
      (-1074 < guess num den → (2 : ℚ) ^ 52 ≤ num / den / 2 ^ guess num den) := by
  obtain ⟨lower, upper⟩ := log2_bounds num_pos den_pos
  have bound : (num.log2 : Int) - den.log2 - 53 ≤ guess num den := le_max_left _ _
  have unit : (0 : ℚ) < 2 ^ guess num den := zpow_pos two_pos _
  constructor
  · rw [div_lt_iff₀ unit, ← zpow_natCast, ← zpow_add₀ two_ne_zero]
    exact upper.trans_le (zpow_le_zpow_right₀ one_le_two (by push_cast; omega))
  · intro above
    have exact' : guess num den = (num.log2 : Int) - den.log2 - 53 := by
      unfold guess at above ⊢
      omega
    rw [le_div_iff₀ unit, ← zpow_natCast, ← zpow_add₀ two_ne_zero]
    exact (zpow_le_zpow_right₀ one_le_two (by push_cast; omega)).trans lower.le

/-- In units of the chosen power the quotient has 53 bits before the point, or fewer under the least
power. -/
theorem chosen_spec (num_pos : 0 < num) (den_pos : 0 < den) :
    -1074 ≤ chosen num den ∧ (num : ℚ) / den / 2 ^ chosen num den < 2 ^ 53 ∧
      (-1074 < chosen num den → (2 : ℚ) ^ 52 ≤ num / den / 2 ^ chosen num den) := by
  obtain ⟨upper, lower⟩ := guess_spec num_pos den_pos
  have least : -1074 ≤ guess num den := le_max_right _ _
  obtain ⟨pos, value⟩ := scaled_spec num den_pos (guess num den)
  have posQ : (0 : ℚ) < (scaled num den (guess num den)).2 := by exact_mod_cast pos
  unfold chosen
  split
  · next large =>
    have next : (num : ℚ) / den / 2 ^ (guess num den + 1) = num / den / 2 ^ guess num den / 2 := by
      rw [zpow_add_one₀ two_ne_zero, ← div_div]
    have big : (2 : ℚ) ^ 53 ≤ num / den / 2 ^ guess num den := by
      rw [← value, le_div_iff₀ posQ]
      rw [Nat.le_div_iff_mul_le pos] at large
      exact_mod_cast large
    rw [next]
    exact ⟨by omega, by linarith, fun _ => by linarith⟩
  · next small =>
    refine ⟨least, ?_, lower⟩
    rw [← value, div_lt_iff₀ posQ]
    rw [Nat.le_div_iff_mul_le pos, Nat.not_le] at small
    exact_mod_cast small

/-- In units of its own power the interval is that of rounding to a whole number. -/
theorem within_units {x : ℚ} (within : Within m q x) :
    ((m : ℚ) - 1 / 2 ≤ x / 2 ^ q ∧ x / 2 ^ q ≤ m + 1 / 2) ∧
      (m % 2 = 1 → (m : ℚ) - 1 / 2 < x / 2 ^ q ∧ x / 2 ^ q < m + 1 / 2) := by
  have unit : (0 : ℚ) < 2 ^ q := zpow_pos two_pos _
  have small := below_le m q
  constructor
  · obtain ⟨low, high⟩ := within.le
    rw [← le_div_iff₀ unit] at low
    rw [← div_le_iff₀ unit] at high
    exact ⟨by linarith, high⟩
  · intro odd
    unfold Within at within
    rw [if_neg (by omega), ← lt_div_iff₀ unit, ← div_lt_iff₀ unit] at within
    exact ⟨by linarith [within.1], within.2⟩

theorem two_zpow_pred (p : Int) : (2 : ℚ) ^ p = 2 * 2 ^ (p - 1) := by
  rw [← zpow_one_add₀ two_ne_zero]
  congr 1
  ring

/-- A number in the interval of a double has no greater power than the double. -/
theorem power_le {x : ℚ} {p : Int} (regular : Regular m q) (within : Within m q x)
    (lower : -1074 < p → 2 ^ 52 ≤ x / 2 ^ p) : p ≤ q := by
  by_contra more
  have unit : ∀ k : Int, (0 : ℚ) < 2 ^ k := fun k => zpow_pos two_pos k
  have big := lower (by have := regular.least; omega)
  rw [le_div_iff₀ (unit p)] at big
  have step : (2 : ℚ) * 2 ^ q ≤ 2 ^ p := by
    rw [← zpow_one_add₀ two_ne_zero]
    exact zpow_le_zpow_right₀ one_le_two (by omega)
  have small : (m : ℚ) + 1 ≤ 2 ^ 53 := by exact_mod_cast regular.small
  nlinarith [unit q, within.le.2]

/-- Where a number in the interval of a double has a smaller power, it lies just below a power of
two: the interval reaches below `2 ^ 52` units only by a part of a unit. -/
theorem power_lt {x : ℚ} {p : Int} (regular : Regular m q) (within : Within m q x)
    (least : -1074 ≤ p) (upper : x / 2 ^ p < 2 ^ 53) (less : p < q) :
    p = q - 1 ∧ m = twoTo 52 ∧ (2 : ℚ) ^ 53 - 1 / 2 ≤ x / 2 ^ p := by
  have unit : ∀ k : Int, (0 : ℚ) < 2 ^ k := fun k => zpow_pos two_pos k
  have low := within.le.1
  have above : -1074 < q := by omega
  have full : (2 : ℚ) ^ 52 ≤ m := by exact_mod_cast regular.full above
  have step := two_zpow_pred q
  have le : (2 : ℚ) ^ p ≤ 2 ^ (q - 1) := zpow_le_zpow_right₀ one_le_two (by omega)
  rw [div_lt_iff₀ (unit p)] at upper
  have isLeast : m = twoTo 52 := by
    by_contra other
    have larger : (2 : ℚ) ^ 52 + 1 ≤ m := by
      have : 2 ^ 52 + 1 ≤ m := by
        have := regular.full above
        have : m ≠ 2 ^ 52 := other
        omega
      exact_mod_cast this
    have := below_le m q
    nlinarith [unit (q - 1), unit q]
  have quarter : below m q = 1 / 4 := by
    unfold below
    rw [if_pos ⟨isLeast, above⟩]
  have leastQ : (m : ℚ) = 2 ^ 52 := by exact_mod_cast isLeast
  rw [quarter, leastQ, step] at low
  have same : p = q - 1 := by
    by_contra other
    have half := two_zpow_pred (q - 1)
    have far : (2 : ℚ) ^ p ≤ 2 ^ (q - 1 - 1) := zpow_le_zpow_right₀ one_le_two (by omega)
    nlinarith [unit (q - 1 - 1)]
  refine ⟨same, isLeast, ?_⟩
  rw [same, le_div_iff₀ (unit _)]
  linarith

/-- A number in the interval of a double has the power of the double, or it lies just below a power
of two. -/
theorem power_cases {x : ℚ} {p : Int} (regular : Regular m q) (within : Within m q x)
    (least : -1074 ≤ p) (upper : x / 2 ^ p < 2 ^ 53) (lower : -1074 < p → 2 ^ 52 ≤ x / 2 ^ p) :
    p = q ∨ p = q - 1 ∧ m = twoTo 52 ∧ (2 : ℚ) ^ 53 - 1 / 2 ≤ x / 2 ^ p := by
  rcases Int.lt_or_eq_of_le (power_le regular within lower) with less | same
  · exact .inr (power_lt regular within least upper less)
  · exact .inl same

/-- A quotient in the interval of a regular significand and power has this magnitude. -/
theorem ofQuotient_of_within (negative : Bool) (regular : Regular m q) (num_pos : 0 < num)
    (den_pos : 0 < den) (within : Within m q (num / den)) :
    ofQuotient negative num den =
      ofMagnitude negative (min ((q + 1074).toNat * twoTo 52 + m) infinityBits) := by
  obtain ⟨least, upper, lower⟩ := chosen_spec num_pos den_pos
  obtain ⟨pos, value⟩ := scaled_spec num den_pos (chosen num den)
  rw [ofQuotient_eq negative num_pos]
  rcases power_cases regular within least upper lower with same | ⟨below, isLeast, high⟩
  · obtain ⟨⟨low, high⟩, odd⟩ := within_units within
    rw [same] at value pos ⊢
    rw [← value] at low high odd
    rw [roundQuotient_eq pos low high odd]
  · have rounded : roundQuotient (scaled num den (chosen num den)).1
        (scaled num den (chosen num den)).2 = twoTo 53 := by
      rw [← value] at high upper
      refine roundQuotient_eq pos ?_ ?_ (fun odd => absurd odd (by decide))
      · rwa [cast_twoTo]
      · rw [cast_twoTo]
        linarith
    have carry : (chosen num den + 1074).toNat * twoTo 52 + twoTo 53 =
        (q + 1074).toNat * twoTo 52 + m := by
      rw [isLeast, show (q + 1074).toNat = (chosen num den + 1074).toNat + 1 by omega]
      have : twoTo 53 = 2 * twoTo 52 := rfl
      rw [this]
      ring
    rw [rounded, carry]

section Bits

variable {d : Double}

-- The powers that cut the bits of a double into its fields, as numerals for `omega`.

theorem twoTo_11 : twoTo 11 = 2048 := rfl

theorem twoTo_52 : twoTo 52 = 4503599627370496 := rfl

theorem twoTo_63 : twoTo 63 = 9223372036854775808 := rfl

theorem bits_lt (d : Double) : d.bits.toNat < 2 ^ 64 := d.bits.toNat_lt

/-- A finite double that is not zero has a regular significand and power. -/
theorem regular (finite : d.isFinite = true) (nonzero : d.isZero = false) :
    Regular d.significand d.power := by
  have bound := bits_lt d
  have exponent : d.exponentField < 2047 := by
    have : d.exponentField < 2048 := Nat.mod_lt _ (by decide)
    have : d.exponentField ≠ 2047 := by simpa [isFinite] using finite
    omega
  have fraction : d.fraction < 2 ^ 52 := Nat.mod_lt _ (by decide)
  have power52 : twoTo 52 = 2 ^ 52 := rfl
  unfold significand power
  split
  · next zero =>
    have : d.fraction ≠ 0 := by simpa [isZero, zero] using nonzero
    exact ⟨by omega, by omega, le_rfl, fun h => absurd h (by omega), by omega⟩
  · exact ⟨by omega, by omega, by simp only [Int.ofNat_eq_natCast]; omega,
      fun _ => by omega, by simp only [Int.ofNat_eq_natCast]; omega⟩

/-- The bits of a double without its sign are its power and its significand. -/
theorem magnitude_eq (d : Double) :
    (d.power + 1074).toNat * twoTo 52 + d.significand = d.bits.toNat % twoTo 63 := by
  have bound := bits_lt d
  unfold significand power exponentField fraction
  rw [twoTo_52, twoTo_63, twoTo_11, Int.ofNat_eq_natCast]
  split <;> omega

theorem magnitude_lt (finite : d.isFinite = true) : d.bits.toNat % twoTo 63 < infinityBits := by
  have bound := bits_lt d
  have exponent : d.exponentField ≠ 2047 := by simpa [isFinite] using finite
  unfold exponentField at exponent
  unfold infinityBits
  rw [twoTo_52, twoTo_11] at *
  rw [twoTo_63]
  omega

/-- A double is its sign and its magnitude. -/
theorem ofMagnitude_self (d : Double) :
    ofMagnitude d.negative (d.bits.toNat % twoTo 63) = d := by
  have bound := bits_lt d
  have sum : (if d.negative then twoTo 63 else 0) + d.bits.toNat % twoTo 63 = d.bits.toNat := by
    unfold negative
    rw [twoTo_63]
    split <;> simp_all <;> omega
  unfold ofMagnitude
  rw [sum, UInt64.ofNat_toNat]

end Bits

section Decimals

variable {d : Double} {e : Int}

theorem digitCount_bounds (pos : 0 < m) : 10 ^ digitCount m ≤ 10 * m ∧ m < 10 ^ digitCount m := by
  have count : digitCount m = (Nat.toDigits 10 m).length := if_neg pos.ne'
  have bound : ∀ {k : Nat}, 0 < k → ((Nat.toDigits 10 m).length ≤ k ↔ m < 10 ^ k) :=
    Nat.length_toDigits_le_iff (by decide)
  have nonempty : 0 < (Nat.toDigits 10 m).length := Nat.length_toDigits_pos
  rw [count]
  refine ⟨?_, (bound nonempty).mp le_rfl⟩
  obtain ⟨k, length⟩ : ∃ k, (Nat.toDigits 10 m).length = k + 1 :=
    ⟨_, (Nat.sub_add_cancel nonempty).symm⟩
  rw [length, pow_succ, mul_comm]
  refine Nat.mul_le_mul_left 10 ?_
  by_cases single : k = 0
  · rw [single]
    exact pos
  · have := mt (bound (Nat.pos_of_ne_zero single)).mpr (by omega)
    omega

/-- The place of the first digit bounds a decimal on both sides. -/
theorem place_bounds (pos : 0 < m) (e : Int) :
    (10 : ℚ) ^ ((digitCount m : Int) + e - 1) ≤ m * 10 ^ e ∧
      (m : ℚ) * 10 ^ e < 10 ^ ((digitCount m : Int) + e) := by
  obtain ⟨low, high⟩ := digitCount_bounds pos
  have low : (10 : ℚ) ^ digitCount m ≤ 10 * m := by exact_mod_cast low
  have high : (m : ℚ) < 10 ^ digitCount m := by exact_mod_cast high
  have unit : (0 : ℚ) < 10 ^ e := zpow_pos (by norm_num) _
  have ten : (10 : ℚ) ≠ 0 := by norm_num
  rw [zpow_sub_one₀ ten, zpow_add₀ ten, zpow_natCast]
  refine ⟨?_, mul_lt_mul_of_pos_right high unit⟩
  have := mul_le_mul_of_nonneg_right low unit.le
  linarith

/-- A number beyond the range of the format is in the interval of no finite double. -/
theorem place_in_range {x : ℚ} {k : Int} (regular : Regular m q) (within : Within m q x)
    (low : (10 : ℚ) ^ (k - 1) ≤ x) (high : x < 10 ^ k) : -330 ≤ k ∧ k ≤ 330 := by
  obtain ⟨above, below⟩ := within.le
  have one : (1 : ℚ) ≤ m := by exact_mod_cast regular.positive
  have small : (m : ℚ) + 1 ≤ 2 ^ 53 := by exact_mod_cast regular.small
  have reach := below_le m q
  have unit : (0 : ℚ) < 2 ^ q := zpow_pos two_pos _
  constructor
  · by_contra far
    have least : (2 : ℚ) ^ (-1075 + 1 : Int) ≤ 2 ^ q :=
      zpow_le_zpow_right₀ one_le_two regular.least
    have tiny : (10 : ℚ) ^ k ≤ 10 ^ (-331 : Int) :=
      zpow_le_zpow_right₀ (by norm_num) (by omega)
    have powers : 2 ^ 1075 < 10 ^ 331 := by decide +kernel
    have gap : (10 : ℚ) ^ (-331 : Int) < 2 ^ (-1075 : Int) := by
      rw [zpow_neg, zpow_neg]
      exact (inv_lt_inv₀ (by positivity) (by positivity)).mpr (by exact_mod_cast powers)
    have half : (2 : ℚ) ^ (-1075 : Int) ≤ 2 ^ q / 2 := by
      rw [le_div_iff₀ two_pos, ← zpow_add_one₀ two_ne_zero]
      exact least
    have value : (2 : ℚ) ^ q / 2 ≤ x := by
      refine le_trans ?_ above
      rw [div_eq_mul_one_div, mul_comm]
      exact mul_le_mul_of_nonneg_right (by linarith) unit.le
    exact absurd (high.trans_le (tiny.trans (gap.le.trans (half.trans value)))) (lt_irrefl x)
  · by_contra far
    have greatest : (2 : ℚ) ^ q ≤ 2 ^ (971 : Int) :=
      zpow_le_zpow_right₀ one_le_two regular.greatest
    have huge : (10 : ℚ) ^ (330 : Int) ≤ 10 ^ (k - 1) :=
      zpow_le_zpow_right₀ (by norm_num) (by omega)
    have powers : 2 ^ 53 * 2 ^ 971 < 10 ^ 330 := by decide +kernel
    have gap : (2 : ℚ) ^ 53 * 2 ^ (971 : Int) < 10 ^ (330 : Int) := by exact_mod_cast powers
    have value : ((m : ℚ) + 1 / 2) * 2 ^ q ≤ 2 ^ 53 * 2 ^ (971 : Int) :=
      mul_le_mul (by linarith) greatest unit.le (by positivity)
    exact absurd (huge.trans (low.trans (below.trans value))) (not_le.mpr gap)

/-- A decimal in the interval of a finite double is read as that double. -/
theorem ofDecimal_of_within (finite : d.isFinite = true) (nonzero : d.isZero = false) (pos : 0 < m)
    (within : Within d.significand d.power (m * 10 ^ e)) : ofDecimal d.negative m e = d := by
  have regular := regular finite nonzero
  obtain ⟨low, high⟩ := place_bounds pos e
  obtain ⟨notTiny, notHuge⟩ := place_in_range regular within low high
  have self : ofMagnitude d.negative
      (min ((d.power + 1074).toNat * twoTo 52 + d.significand) infinityBits) = d := by
    rw [magnitude_eq, min_eq_left (magnitude_lt finite).le, ofMagnitude_self]
  unfold ofDecimal
  dsimp only
  rw [if_neg (by simp only [Int.ofNat_eq_natCast]; omega),
    if_neg (by simp only [Int.ofNat_eq_natCast]; omega)]
  have power : ∀ n, 0 < tenTo n := fun n => Nat.pow_pos (by decide)
  split
  · next nonneg =>
    have value : ((m * tenTo e.toNat : Nat) : ℚ) / (1 : Nat) = m * 10 ^ e := by
      push_cast [cast_tenTo]
      rw [div_one, ← zpow_natCast, Int.toNat_of_nonneg nonneg]
    rw [ofQuotient_of_within d.negative regular (Nat.mul_pos pos (power _)) Nat.one_pos
      (by rwa [value]), self]
  · next negative =>
    have value : (m : ℚ) / (tenTo (-e).toNat : Nat) = m * 10 ^ e := by
      rw [cast_tenTo, ← zpow_natCast, Int.toNat_of_nonneg (by omega), zpow_neg, div_inv_eq_mul]
    rw [ofQuotient_of_within d.negative regular pos (power _) (by rwa [value]), self]

end Decimals

end RequestWriter.Double
