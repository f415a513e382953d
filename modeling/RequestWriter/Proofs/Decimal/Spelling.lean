import RequestWriter.Proofs.Decimal.Shortest
import RequestWriter.Proofs.Json.Integer
import RequestWriter.Decimal.Notation

/-!
# Spelling doubles

The text of a finite double is a number of the grammar of JSON, with a fraction or an exponent, and
the double that it denotes is the one that was written. The layout only moves the point: in each of
its forms the digits and the exponent stand for the shortest decimal of the double.
-/

namespace RequestWriter.Decimal

open Json Json.Grammar

section Layout

variable {c : Char} {ds : List Char} {place : Int}

theorem spelled_append_zeros (ds : List Char) (k : Nat) :
    spelled (ds ++ List.replicate k '0') = 10 ^ k * spelled ds := by
  rw [spelled, Nat.ofDigitChars_append, Nat.ofDigitChars_replicate_zero]

theorem spelled_zeros_append (ds : List Char) (k : Nat) :
    spelled (List.replicate k '0' ++ ds) = spelled ds := by
  rw [spelled, Nat.ofDigitChars_append, Nat.ofDigitChars_replicate_zero, Nat.mul_zero]

theorem isDigit_zeros {k : Nat} {x : Char} (h : x ∈ List.replicate k '0') : x.isDigit = true := by
  rw [List.eq_of_mem_replicate h]
  rfl

/-- The text is a whole part and a fraction, and together they have this value. -/
def Points (text : List Char) (value : ℚ) : Prop :=
  ∃ whole fraction, text = whole ++ '.' :: fraction ∧ Whole whole ∧ fraction ≠ [] ∧
    (∀ x ∈ fraction, x.isDigit) ∧
    (spelled (whole ++ fraction) : ℚ) * 10 ^ (-(fraction.length : Int)) = value

/-- The point stands in front of the digits, with zeros between. -/
theorem points_before {k : Nat} {digits : List Char} (nonempty : digits ≠ [])
    (all : ∀ x ∈ digits, x.isDigit) :
    Points ('0' :: '.' :: List.replicate k '0' ++ digits)
      (spelled digits * 10 ^ (-(k : Int) - digits.length)) := by
  refine ⟨['0'], List.replicate k '0' ++ digits, by simp, .zero, by simp [nonempty], ?_, ?_⟩
  · intro x hx
    rcases List.mem_append.mp hx with hx | hx
    · exact isDigit_zeros hx
    · exact all x hx
  · have zeros : ['0'] ++ (List.replicate k '0' ++ digits) =
        List.replicate (k + 1) '0' ++ digits := by
      rw [List.replicate_succ]
      rfl
    rw [zeros, spelled_zeros_append]
    congr 2
    rw [List.length_append, List.length_replicate]
    omega

/-- The point stands behind the digits, with zeros between. -/
theorem points_behind {k : Nat} (first : c.isDigit) (nonzero : c ≠ '0')
    (rest : ∀ x ∈ ds, x.isDigit) :
    Points (c :: ds ++ List.replicate k '0' ++ ['.', '0'])
      (spelled (c :: ds) * 10 ^ (k : Int)) := by
  refine ⟨c :: (ds ++ List.replicate k '0'), ['0'], by simp, .digits first nonzero ?_,
    by simp, by simp, ?_⟩
  · intro x hx
    rcases List.mem_append.mp hx with hx | hx
    · exact rest x hx
    · exact isDigit_zeros hx
  · have all : c :: (ds ++ List.replicate k '0') ++ ['0'] =
        c :: ds ++ List.replicate (k + 1) '0' := by
      rw [List.replicate_succ']
      simp
    rw [all, spelled_append_zeros]
    push_cast
    rw [zpow_natCast, pow_succ]
    simp
    ring

/-- The point stands between the digits. -/
theorem points_between {k : Nat} (first : c.isDigit) (nonzero : c ≠ '0')
    (rest : ∀ x ∈ ds, x.isDigit) (short : k < ds.length) :
    Points ((c :: ds).take (k + 1) ++ '.' :: (c :: ds).drop (k + 1))
      (spelled (c :: ds) * 10 ^ ((k : Int) - ds.length)) := by
  refine ⟨c :: ds.take k, ds.drop k, rfl, .digits first nonzero ?_, ?_, ?_, ?_⟩
  · exact fun x hx => rest x (List.mem_of_mem_take hx)
  · intro none
    have := List.drop_eq_nil_iff.mp none
    omega
  · exact fun x hx => rest x (List.mem_of_mem_drop hx)
  · rw [List.cons_append, List.take_append_drop]
    congr 2
    rw [List.length_drop]
    omega

/-- A positional layout is a whole part and a fraction with the value of the digits. -/
theorem points_positional (first : c.isDigit) (nonzero : c ≠ '0') (rest : ∀ x ∈ ds, x.isDigit)
    (place : Int) :
    Points (positional (c :: ds) place)
      (spelled (c :: ds) * 10 ^ (place - (c :: ds).length)) := by
  unfold positional
  split
  · next low =>
    have before := points_before (k := (-place).toNat) (List.cons_ne_nil c ds)
      (List.forall_mem_cons.mpr ⟨first, rest⟩)
    rwa [show -((-place).toNat : Int) = place by omega] at before
  · next high =>
    split
    · next short =>
      have behind := points_behind (k := place.toNat - (c :: ds).length) first nonzero rest
      rwa [show ((place.toNat - (c :: ds).length : Nat) : Int) = place - (c :: ds).length by omega]
        at behind
    · next long =>
      obtain ⟨k, isSucc⟩ : ∃ k, place.toNat = k + 1 := ⟨place.toNat - 1, by omega⟩
      rw [isSucc, List.length_cons, Nat.not_le] at long
      have between := points_between first nonzero rest (Nat.lt_of_succ_lt_succ long)
      rwa [isSucc, show place - (c :: ds).length = (k : Int) - ds.length by
        rw [List.length_cons]; omega]

/-- A scientific layout is one digit, the other digits behind the point, and an exponent. -/
theorem scientific_parts (rest : ∀ x ∈ ds, x.isDigit) (exponent : Int) :
    ∃ frac exp, scientific 2 (c :: ds) exponent = c :: (frac ++ exp) ∧ Fraction frac ds ∧
      Exponent exp (some exponent) := by
  have digits : ∀ n, ∀ x ∈ (Text.padLeftZero 2 n).toList, x.isDigit := by
    intro n x hx
    rw [Text.padLeftZero, String.toList_ofList] at hx
    rcases List.mem_append.mp hx with hx | hx
    · exact isDigit_zeros hx
    · exact isDigit_toDigits hx
  have nonempty : ∀ n, (Text.padLeftZero 2 n).toList ≠ [] := by
    intro n
    simp [Text.padLeftZero]
  have value : ∀ n, spelled (Text.padLeftZero 2 n).toList = n := by
    intro n
    rw [Text.padLeftZero, String.toList_ofList, spelled_zeros_append]
    exact Nat.ofDigitChars_ten_toDigits
  have exp : Exponent ('e' :: [if exponent < 0 then '-' else '+'] ++
      (Text.padLeftZero 2 exponent.natAbs).toList) (some exponent) := by
    have size : exponent = signed (decide (exponent < 0))
        (spelled (Text.padLeftZero 2 exponent.natAbs).toList) := by
      rw [value, signed]
      split <;> simp_all only [decide_eq_true_eq] <;> omega
    have sign : ExponentSign [if exponent < 0 then '-' else '+'] (decide (exponent < 0)) := by
      by_cases negative : exponent < 0
      · simp only [negative, if_true, decide_true]
        exact .minus
      · simp only [negative, if_false, decide_false]
        exact .plus
    have present := Exponent.present (.inl rfl) sign (nonempty exponent.natAbs) (digits _)
    rwa [← size] at present
  cases ds with
  | nil => exact ⟨[], _, rfl, .absent, exp⟩
  | cons d ds => exact ⟨'.' :: d :: ds, _, rfl, .present (by simp) rest, exp⟩

end Layout

section Doubles

variable {d : Double}

theorem isNaN_of_isFinite (finite : d.isFinite = true) : d.isNaN = false := by
  have : d.exponentField ≠ 2047 := by simpa [Double.isFinite] using finite
  simp [Double.isNaN, this]

theorem eq_zero_of_isZero (zero : d.isZero = true) : Double.zero d.negative = d := by
  have zero : d.exponentField = 0 ∧ d.fraction = 0 := by simpa [Double.isZero] using zero
  have magnitude := Double.magnitude_eq d
  have least : d.power = -1074 := if_pos zero.1
  have nothing : d.significand = 0 := (if_pos zero.1).trans zero.2
  rw [least, nothing] at magnitude
  have self := Double.ofMagnitude_self d
  rw [← magnitude] at self
  exact self

/-- A decimal with the value of the shortest one is read as the double. -/
theorem double_eq (finite : d.isFinite = true) (nonzero : d.isZero = false)
    {whole fraction : List Char} {exponent : Option Int}
    (value : (spelled (whole ++ fraction) : ℚ) * 10 ^ (exponent.getD 0 - (fraction.length : Int)) =
      (shortest d).digits * 10 ^ (shortest d).exponent) :
    double d.negative whole fraction exponent = d := by
  obtain ⟨pos, within⟩ := shortest_within finite nonzero
  rw [← value] at within
  have positive : 0 < spelled (whole ++ fraction) := by
    refine Nat.pos_of_ne_zero fun zero => ?_
    rw [zero, Nat.cast_zero, zero_mul] at value
    have : (0 : ℚ) < (shortest d).digits * 10 ^ (shortest d).exponent := by positivity
    exact absurd value this.ne
  exact Double.ofDecimal_of_within finite nonzero positive within

/-- The digits of a shortest decimal that is not zero. -/
theorem shortest_digits (finite : d.isFinite = true) (nonzero : d.isZero = false) :
    ∃ c ds, Nat.toDigits 10 (shortest d).digits = c :: ds ∧ c.isDigit = true ∧ c ≠ '0' ∧
      (∀ x ∈ ds, x.isDigit = true) ∧ spelled (c :: ds) = (shortest d).digits := by
  obtain ⟨c, ds, digits, front⟩ := toDigits_front (shortest_within finite nonzero).1
  have isDigit : ∀ x ∈ c :: ds, x.isDigit = true := fun x hx => isDigit_toDigits (digits ▸ hx)
  refine ⟨c, ds, digits, isDigit c List.mem_cons_self, front,
    fun x hx => isDigit x (List.mem_cons_of_mem c hx), ?_⟩
  rw [← digits]
  exact Nat.ofDigitChars_ten_toDigits

/-- The text of a finite double is a number of the grammar that denotes the double. -/
theorem number_write (finite : d.isFinite = true) :
    Number (sourceNotation.write d).toList (.scalar (.float d)) := by
  have sign : Minus (if d.negative then "-" else "").toList d.negative := by
    cases d.negative
    · exact .absent
    · exact .present
  unfold Notation.write
  rw [if_neg (by simp [isNaN_of_isFinite finite]), if_neg (by simp [finite])]
  generalize (if d.negative then "-" else "") = signText at sign ⊢
  cases nonzero : d.isZero with
  | true =>
    have zero : double d.negative ['0'] ['0'] none = d := eq_zero_of_isZero nonzero
    have number := Number.float sign .zero (.present (List.cons_ne_nil '0' []) (by simp)) .absent
      (.inl (List.cons_ne_nil _ _)) (by rw [zero]; exact finite)
    rw [zero] at number
    have none : shortest d = ⟨0, 0⟩ := if_pos nonzero
    rw [none]
    simpa [sourceNotation, plainNotation, positional] using number
  | false =>
    obtain ⟨c, ds, digits, first, front, rest, value⟩ := shortest_digits finite nonzero
    dsimp only
    rw [digits]
    split
    · obtain ⟨whole, fraction, text, isWhole, nonempty, isFraction, moved⟩ :=
        points_positional first front rest
          (Int.ofNat (c :: ds).length + (shortest d).exponent)
      have same : double d.negative whole fraction none = d := by
        refine double_eq finite nonzero ?_
        rw [value] at moved
        simpa using moved
      have number := Number.float sign isWhole (.present nonempty isFraction) .absent
        (.inl nonempty) (by rw [same]; exact finite)
      rw [same] at number
      rw [text]
      simpa using number
    · obtain ⟨frac, exp, text, fracPart, expPart⟩ := scientific_parts (c := c) rest
        (Int.ofNat (c :: ds).length + (shortest d).exponent - 1)
      have same : double d.negative [c] ds
          (some (Int.ofNat (c :: ds).length + (shortest d).exponent - 1)) = d := by
        refine double_eq finite nonzero ?_
        rw [List.singleton_append, value]
        congr 2
        simp
        ring
      have number := Number.float sign (.digits first front (List.forall_mem_nil _)) fracPart
        expPart (.inr (by simp)) (by rw [same]; exact finite)
      rw [same] at number
      have width : sourceNotation.exponentWidth = 2 := rfl
      rw [width, text]
      simpa using number

end Doubles

end RequestWriter.Decimal
