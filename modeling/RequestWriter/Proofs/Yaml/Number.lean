import RequestWriter.Proofs.Yaml.Flow
import RequestWriter.Proofs.Json.Denoted
import RequestWriter.Proofs.Decimal.Rounding
import RequestWriter.Proofs.Yaml.Plain
import RequestWriter.Proofs.Text.Search
import Mathlib.Data.Bool.AllAny
import Mathlib.Tactic.IntervalCases

/-!
# Numbers of flow style

A number is recognized as one, as a whole number or as one with a point, and has its value. One
reader puts the sign in front of the digits and the other turns the sign of the result, which is the
same for a double too. The mark of an exponent may be a capital letter; the reader of doubles turns
the text into small letters first.
-/

namespace RequestWriter

namespace Double

/-- Rounding looks at the magnitude only; the sign is put in front. -/
theorem ofQuotient_sign (num den : Nat) :
    ∃ magnitude, magnitude ≤ infinityBits ∧
      ∀ negative, ofQuotient negative num den = ofMagnitude negative magnitude := by
  by_cases zero : num = 0
  · exact ⟨0, Nat.zero_le _, fun negative => by rw [ofQuotient, if_pos zero]; rfl⟩
  · exact ⟨_, Nat.min_le_right _ _, fun negative =>
      ofQuotient_eq negative (Nat.pos_of_ne_zero zero)⟩

theorem ofDecimal_sign (m : Nat) (e : Int) :
    ∃ magnitude, magnitude ≤ infinityBits ∧
      ∀ negative, ofDecimal negative m e = ofMagnitude negative magnitude := by
  unfold ofDecimal
  dsimp only
  split
  · exact ⟨0, Nat.zero_le _, fun _ => rfl⟩
  · split
    · exact ⟨infinityBits, Nat.le_refl _, fun _ => rfl⟩
    · split
      · exact ofQuotient_sign _ _
      · exact ofQuotient_sign _ _

theorem neg_ofMagnitude {magnitude : Nat} (h : magnitude ≤ infinityBits) :
    (ofMagnitude false magnitude).neg = ofMagnitude true magnitude := by
  have words : UInt64.size = 18446744073709551616 := rfl
  unfold infinityBits at h
  rw [twoTo_52] at h
  have bits : (ofMagnitude false magnitude).bits.toNat = magnitude := by
    rw [ofMagnitude, if_neg (by decide), Nat.zero_add, UInt64.toNat_ofNat']
    omega
  have number : (ofMagnitude false magnitude).isNaN = false := by
    unfold isNaN exponentField fraction
    rw [bits, twoTo_52, twoTo_11, Bool.and_eq_false_iff, decide_eq_false_iff_not,
      decide_eq_false_iff_not]
    omega
  have signless : magnitude < twoTo 63 := by
    rw [twoTo_63]
    omega
  have positive : (ofMagnitude false magnitude).negative = false := by
    rw [negative, bits, Nat.div_eq_of_lt signless]
    rfl
  rw [neg, number, if_neg (by decide), positive, bits, Nat.mod_eq_of_lt signless]
  rfl

/-- The sign of a decimal is the sign of its double. -/
theorem neg_ofDecimal (m : Nat) (e : Int) : (ofDecimal false m e).neg = ofDecimal true m e := by
  obtain ⟨magnitude, bound, signed⟩ := ofDecimal_sign m e
  rw [signed, signed, neg_ofMagnitude bound]

end Double

namespace Yaml

open Json.Grammar hiding Chars Denotes Text
open RequestWriter.Yaml.Flow (SignedExponent)

/-- The characters of numbers. -/
def numerals : List Char :=
  ['0', '1', '2', '3', '4', '5', '6', '7', '8', '9', '-', '+', '.', 'e', 'E']

theorem mem_numerals_of_isDigit {c : Char} (h : c.isDigit = true) : c ∈ numerals.take 10 := by
  have range : 48 ≤ c.toNat ∧ c.toNat ≤ 57 := by
    simpa [Char.isDigit, UInt32.le_iff_toNat_le] using h
  rw [← Char.ofNat_toNat c]
  obtain ⟨low, high⟩ := range
  interval_cases c.toNat <;> decide

namespace Number

variable {cs ds : List Char}

theorem digits?_eq (nonempty : ds ≠ []) (digits : ∀ c ∈ ds, c.isDigit = true) :
    digits? 10 ds = some (spelled ds) := by
  have value : ∀ c ∈ numerals.take 10,
      Text.hexValue? c = some (c.toNat - '0'.toNat) ∧ c.toNat - '0'.toNat < 10 :=
    List.all_iff_forall_prop.mp (by decide)
  have fold : ∀ n : Nat, ds.foldlM (fun n c => (Text.hexValue? c).bind fun d =>
      if d < 10 then some (10 * n + d) else none) n = some (Nat.ofDigitChars 10 ds n) := by
    clear nonempty
    induction ds with
    | nil => simp
    | cons c ds ih =>
      intro n
      rw [List.forall_mem_cons] at digits
      obtain ⟨hex, small⟩ := value c (mem_numerals_of_isDigit digits.1)
      rw [List.foldlM_cons, hex, Option.bind_some, if_pos small, Nat.ofDigitChars_cons]
      exact ih digits.2 _
  rw [digits?, if_neg (by simpa using nonempty), fold]

/-- No character of a number is a blank, so nothing is trimmed. -/
theorem trim_eq (h : ∀ c ∈ cs, c ∈ numerals) : trim cs = cs := by
  have noBlank : ∀ c ∈ numerals, Text.isBlank c = false :=
    List.all_iff_forall_prop.mp (by decide)
  have kept : ∀ {cs : List Char}, (∀ c ∈ cs, c ∈ numerals) → cs.dropWhile Text.isBlank = cs := by
    intro cs h
    cases cs with
    | nil => rfl
    | cons c cs => simp [noBlank c (h c List.mem_cons_self)]
  rw [trim, Text.strip, String.toList_ofList, String.toList_ofList, kept h,
    kept fun c hc => h c (List.mem_reverse.mp hc), List.reverse_reverse]

theorem dropUnderscores_eq (h : ∀ c ∈ cs, c ∈ numerals) :
    dropUnderscores (String.ofList cs) = cs := by
  have other : ∀ c ∈ numerals, (c != '_') = true :=
    List.all_iff_forall_prop.mp (by decide)
  rw [dropUnderscores, String.toList_ofList]
  exact List.filter_eq_self.mpr fun c hc => other c (h c hc)

theorem split_colon (h : ∀ c ∈ cs, c ∈ numerals) : Text.split ':' cs = [cs] :=
  Text.split_of_notMem fun mem => absurd (h _ mem) (by decide)

/-- The text behind the sign of a number. -/
theorem dropSign_append {sign : List Char} {negative : Bool} {c : Char} (sgn : Minus sign negative)
    (digit : c.isDigit = true) (cs : List Char) : Tag.dropSign (sign ++ c :: cs) = c :: cs := by
  cases sgn with
  | absent =>
    have other : ∀ c ∈ numerals.take 10, c ≠ '+' ∧ c ≠ '-' :=
      List.all_iff_forall_prop.mp (by decide)
    obtain ⟨noPlus, noMinus⟩ := other c (mem_numerals_of_isDigit digit)
    simp [Tag.dropSign, noPlus, noMinus]
  | present => rfl

section Integers

theorem isSpacedDigit_of_isDigit {c : Char} (h : c.isDigit = true) :
    Tag.isSpacedDigit c = true := by
  rw [Tag.isSpacedDigit, h, Bool.true_or]

theorem isUnsigned_whole (h : Whole ds) : Tag.isUnsigned ds = true := by
  cases h with
  | zero => rfl
  | @digits d ds first nonzero rest =>
    have all : ∀ c ∈ d :: ds, c.isDigit = true := List.forall_mem_cons.mpr ⟨first, rest⟩
    have spaced : ∀ c ∈ ds, Tag.isSpacedDigit c = true :=
      fun c hc => isSpacedDigit_of_isDigit (rest c hc)
    have oneGroup : Text.split ':' (d :: ds) = [d :: ds] :=
      split_colon fun c hc => List.mem_of_mem_take (mem_numerals_of_isDigit (all c hc))
    unfold Tag.isUnsigned
    split
    case h_1 zero | h_2 zero | h_3 zero | h_4 zero => exact absurd (List.cons.inj zero).1 nonzero
    case h_5 =>
      rw [oneGroup]
      simpa [Tag.isSpacedNumber, first] using spaced

theorem unsigned_whole (h : Whole ds) (short : ds.length ≤ 4300) :
    unsigned ds = .ok (spelled ds : Int) := by
  cases h with
  | zero => rfl
  | @digits d ds first nonzero rest =>
    have all : ∀ c ∈ d :: ds, c.isDigit = true := List.forall_mem_cons.mpr ⟨first, rest⟩
    have numeral : ∀ c ∈ d :: ds, c ∈ numerals :=
      fun c hc => List.mem_of_mem_take (mem_numerals_of_isDigit (all c hc))
    have noMinus : d ≠ '-' := by
      rintro rfl
      cases first
    have sign : Tag.dropSign (d :: ds) = d :: ds := dropSign_append .absent first ds
    have base : dropBasePrefix 10 (d :: ds) = d :: ds := by
      unfold dropBasePrefix
      split
      · exact absurd (List.cons.inj ‹_›).1 nonzero
      · rfl
    have limit : ¬((10 == 10 && maxDigits < (d :: ds).length) = true) := by
      rw [beq_self_eq_true, Bool.true_and, decide_eq_true_eq, maxDigits]
      omega
    have number : whole? 10 (d :: ds) = some (spelled (d :: ds) : Int) := by
      rw [whole?, trim_eq numeral, sign, base, natural?, if_neg limit, digits?_eq (by simp) all]
      simp [noMinus]
    unfold unsigned
    split
    case h_1 empty => cases empty
    case h_2 zero | h_3 zero | h_4 zero | h_5 zero => exact absurd (List.cons.inj zero).1 nonzero
    case h_6 =>
      rw [split_colon numeral, number]
      rfl

/-- A whole number has its value, with its sign. -/
theorem int_eq {sign whole : List Char} {negative : Bool} (sgn : Minus sign negative)
    (h : Whole whole) (short : whole.length ≤ 4300)
    (numeral : ∀ c ∈ sign ++ whole, c ∈ numerals) :
    int (String.ofList (sign ++ whole)) = .ok (signed negative (spelled whole)) := by
  obtain ⟨d, ds, rfl, digit⟩ : ∃ d ds, whole = d :: ds ∧ d.isDigit = true := by
    cases h with
    | zero => exact ⟨_, _, rfl, rfl⟩
    | digits first => exact ⟨_, _, rfl, first⟩
  have value := unsigned_whole h short
  have drop := dropSign_append sgn digit ds
  have noMinus : d ≠ '-' := by
    rintro rfl
    cases digit
  rw [int, dropUnderscores_eq numeral]
  cases sgn with
  | absent =>
    simp only [List.nil_append] at drop ⊢
    rw [drop, value]
    simp [noMinus, signed]
  | present =>
    simp only [List.cons_append, List.nil_append] at drop ⊢
    rw [drop, value]
    rfl

end Integers

section Reals

theorem isExponent_signed {exp : List Char} {value : Int} (h : SignedExponent exp value) :
    Tag.isExponent exp = true := by
  cases h with
  | absent => rfl
  | plus mark nonempty digits | minus mark nonempty digits =>
    have all := List.all_eq_true.mpr digits
    rcases mark with rfl | rfl <;> simp [Tag.isExponent, nonempty, all]

theorem toLower_digits (digits : ∀ c ∈ ds, c.isDigit = true) : ds.map Char.toLower = ds := by
  have lower : ∀ c ∈ numerals.take 10, c.toLower = c :=
    List.all_iff_forall_prop.mp (by decide)
  rw [List.map_congr_left fun c hc => lower c (mem_numerals_of_isDigit (digits c hc)), List.map_id']

theorem exponent?_signed {exp : List Char} {value : Int} (h : SignedExponent exp value) :
    exponent? (exp.map Char.toLower) = some value := by
  cases h with
  | absent => rfl
  | @plus e ds mark nonempty digits =>
    have lower : (e :: '+' :: ds).map Char.toLower = 'e' :: '+' :: ds := by
      rcases mark with rfl | rfl <;> simp [toLower_digits digits]
    rw [lower, exponent?, if_pos (by decide), Tag.dropSign, digits?_eq nonempty digits]
    rfl
  | @minus e ds mark nonempty digits =>
    have lower : (e :: '-' :: ds).map Char.toLower = 'e' :: '-' :: ds := by
      rcases mark with rfl | rfl <;> simp [toLower_digits digits]
    rw [lower, exponent?, if_pos (by decide), Tag.dropSign, digits?_eq nonempty digits]
    rfl

/-- An exponent begins with no digit, in capitals as in small letters. -/
theorem starts_signed {exp : List Char} {value : Int} (h : SignedExponent exp value) :
    Json.Starts (fun c => Tag.isSpacedDigit c = false) exp ∧
      Json.Starts (fun c => c.isDigit = false) (exp.map Char.toLower) := by
  cases h with
  | absent => simp
  | plus mark | minus mark => rcases mark with rfl | rfl <;> simp <;> decide

variable {sign whole frac exp : List Char} {negative : Bool} {value : Int}

theorem isFloat_real (sgn : Minus sign negative) (int : Whole whole)
    (digits : ∀ c ∈ frac, c.isDigit = true) (h : SignedExponent exp value) :
    Tag.isFloat (sign ++ (whole ++ '.' :: (frac ++ exp))) = true := by
  have wholeDigits := Json.isDigit_of_whole int
  obtain ⟨d, ds, rfl, digit⟩ := Json.exists_cons_of_whole int
  have number : Tag.isSpacedNumber (d :: ds) = true := by
    rw [Tag.isSpacedNumber, digit, Bool.true_and]
    exact List.all_eq_true.mpr fun c hc =>
      isSpacedDigit_of_isDigit (wholeDigits c (List.mem_cons_of_mem d hc))
  have point : '.' ∉ d :: ds := fun mem => absurd (wholeDigits _ mem) (by decide)
  have fraction : Tag.isFraction (frac ++ exp) = true := by
    have left : exp.dropWhile Tag.isSpacedDigit = exp := by
      cases exp with
      | nil => rfl
      | cons c exp => simp [(Json.starts_cons _ c exp).mp (starts_signed h).1]
    rw [Tag.isFraction,
      List.dropWhile_append_of_pos fun c hc => isSpacedDigit_of_isDigit (digits c hc), left,
      isExponent_signed h]
  have drop := dropSign_append sgn digit (ds ++ '.' :: (frac ++ exp))
  rw [Tag.isFloat, List.cons_append, drop, ← List.cons_append, Text.cut?_append point]
  simp [number, fraction]

theorem pointed?_real (int : Whole whole) (digits : ∀ c ∈ frac, c.isDigit = true)
    (h : SignedExponent exp value) :
    pointed? false (whole ++ '.' :: (frac ++ exp.map Char.toLower)) =
      some (Double.ofDecimal false (spelled (whole ++ frac)) (value - frac.length)) := by
  have first : spanDigits (whole ++ '.' :: (frac ++ exp.map Char.toLower)) =
      (whole, '.' :: (frac ++ exp.map Char.toLower)) :=
    Json.spanDigits_append (Json.isDigit_of_whole int) (by simp)
  have second : spanDigits (frac ++ exp.map Char.toLower) = (frac, exp.map Char.toLower) :=
    Json.spanDigits_append digits (starts_signed h).2
  have nonempty : whole.isEmpty = false := by cases int <;> rfl
  simp only [pointed?, first, second, nonempty, exponent?_signed h]
  rfl

/-- The words for values that are no decimals. -/
def words : List String := ["inf", "infinity", "nan", ".inf", ".nan"]

/-- No word begins with a digit. -/
theorem ne_word {d : Char} (digit : d.isDigit = true) (cs : List Char) {word : String}
    (mem : word ∈ words) : String.ofList (d :: cs) ≠ word := by
  have fronts : ∀ word ∈ words, word.toList.head? ∉ (numerals.take 10).map some := by decide
  rintro rfl
  refine fronts _ mem ?_
  rw [String.toList_ofList, List.head?_cons]
  exact List.mem_map_of_mem (mem_numerals_of_isDigit digit)

theorem unsignedReal_real (int : Whole whole) (digits : ∀ c ∈ frac, c.isDigit = true)
    (h : SignedExponent exp value)
    (numeral : ∀ c ∈ whole ++ '.' :: (frac ++ exp.map Char.toLower), c ∈ numerals) :
    unsignedReal (whole ++ '.' :: (frac ++ exp.map Char.toLower)) =
      .ok (Double.ofDecimal false (spelled (whole ++ frac)) (value - frac.length)) := by
  have pointed := pointed?_real int digits h
  have wholeDigits := Json.isDigit_of_whole int
  obtain ⟨d, ds, rfl, digit⟩ := Json.exists_cons_of_whole int
  have noMinus : d ≠ '-' := by
    rintro rfl
    cases digit
  have noWord : ∀ word ∈ words,
      String.ofList (d :: (ds ++ '.' :: (frac ++ exp.map Char.toLower))) ≠ word :=
    fun _ mem => ne_word digit _ mem
  have drop := dropSign_append .absent digit (ds ++ '.' :: (frac ++ exp.map Char.toLower))
  rw [List.nil_append] at drop
  rw [List.cons_append] at numeral pointed ⊢
  have real : real? (d :: (ds ++ '.' :: (frac ++ exp.map Char.toLower))) =
      some (Double.ofDecimal false (spelled (d :: ds ++ frac)) (value - frac.length)) := by
    have unsigned : ((d :: (ds ++ '.' :: (frac ++ exp.map Char.toLower))).head? == some '-') =
        false := by
      simpa using noMinus
    rw [real?, trim_eq numeral]
    simp only [drop, unsigned, noWord "inf" (by decide), noWord "infinity" (by decide),
      noWord "nan" (by decide), decide_false, Bool.or_self, Bool.false_eq_true, if_false]
    exact pointed
  rw [unsignedReal]
  simp only [noWord ".inf" (by decide), noWord ".nan" (by decide), if_false, split_colon numeral,
    real]
  rfl

/-- A number with a point has its value, with its sign. -/
theorem float_eq (sgn : Minus sign negative) (int : Whole whole)
    (digits : ∀ c ∈ frac, c.isDigit = true) (h : SignedExponent exp value)
    (numeral : ∀ c ∈ sign ++ (whole ++ '.' :: (frac ++ exp)), c ∈ numerals) :
    float (String.ofList (sign ++ (whole ++ '.' :: (frac ++ exp)))) =
      .ok (Double.ofDecimal negative (spelled (whole ++ frac)) (value - frac.length)) := by
  have lower : ∀ c ∈ numerals, c.toLower ∈ numerals :=
    List.all_iff_forall_prop.mp (by decide)
  have wholeDigits := Json.isDigit_of_whole int
  have shape : (sign ++ (whole ++ '.' :: (frac ++ exp))).map Char.toLower =
      sign ++ (whole ++ '.' :: (frac ++ exp.map Char.toLower)) := by
    have : sign.map Char.toLower = sign := by cases sgn <;> rfl
    simp only [List.map_append, List.map_cons, this, toLower_digits wholeDigits,
      toLower_digits digits]
    rfl
  have numeral' : ∀ c ∈ whole ++ '.' :: (frac ++ exp.map Char.toLower), c ∈ numerals := by
    intro c hc
    have mem := List.mem_append_right sign hc
    rw [← shape] at mem
    obtain ⟨x, hx, rfl⟩ := List.mem_map.mp mem
    exact lower x (numeral x hx)
  have unsigned := unsignedReal_real int digits h numeral'
  obtain ⟨d, ds, rfl, digit⟩ := Json.exists_cons_of_whole int
  have drop := dropSign_append sgn digit (ds ++ '.' :: (frac ++ exp.map Char.toLower))
  rw [List.cons_append] at unsigned
  rw [float, dropUnderscores_eq numeral, shape]
  cases sgn with
  | absent =>
    have noMinus : d ≠ '-' := by
      rintro rfl
      cases digit
    simp only [List.nil_append, List.cons_append] at drop ⊢
    rw [drop, unsigned]
    simp [noMinus]
  | present =>
    simp only [List.nil_append, List.cons_append] at drop ⊢
    rw [drop, unsigned, ← Double.neg_ofDecimal]
    rfl

end Reals

end Number

end Yaml

end RequestWriter
