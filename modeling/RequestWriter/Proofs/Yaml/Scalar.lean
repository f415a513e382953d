import RequestWriter.Proofs.Yaml.Number
import Mathlib.Data.List.TakeWhile

/-!
# Words that stand for values

The words of flow style as plain scalars: numbers, truth values and nothing. Each is one word
without marks, and its looks give it the tag under which it has its value. A number whose exponent
is too short looks like nothing else, so it stands for itself.
-/

namespace RequestWriter.Yaml

open Json.Grammar hiding Chars Denotes Text
open RequestWriter.Yaml.Flow (SignedExponent nulls truths)

/-- The characters with which a word begins, perhaps behind a minus sign. -/
def wordFronts : List Char :=
  numerals.take 10 ++ ['n', 'N', 't', 'T', 'f', 'F', 'y', 'Y', 'o', 'O']

/-- A word that stands for a value without quotes. -/
structure IsWord (t : List Char) (s : Scalar) : Prop where
  chars : ∀ x ∈ t, IsWordChar x
  front : ∃ x ∈ wordFronts, ∃ w, t = x :: w ∨ t = '-' :: x :: w
  value : (Tag.ofPlain (String.ofList t)).value (String.ofList t) = .ok s

/-- What the words for nothing and for truth values have in common. -/
theorem isWord_of_spelling (spellings : List String)
    (chars : (spellings.all fun w => w.toList.all fun x => decide (IsWordChar x)) = true)
    (fronts : ∀ w ∈ spellings, w.toList.head? ∈ wordFronts.map some) {t : List Char}
    (known : String.ofList t ∈ spellings) {s : Scalar}
    (value : (Tag.ofPlain (String.ofList t)).value (String.ofList t) = .ok s) : IsWord t s := by
  have plain := List.all_iff_forall_prop.mp (List.all_eq_true.mp chars _ known)
  have front := fronts _ known
  rw [String.toList_ofList] at plain front
  obtain ⟨x, mem, eq⟩ := List.mem_map.mp front
  obtain ⟨w, rfl⟩ := List.head?_eq_some_iff.mp eq.symm
  exact ⟨plain, ⟨x, mem, w, .inl rfl⟩, value⟩

theorem isWord_null {t : List Char} (known : String.ofList t ∈ nulls) : IsWord t .null := by
  refine isWord_of_spelling nulls (by decide) (List.all_iff_forall_prop.mp (by decide)) known ?_
  have tags : ∀ w ∈ nulls, Tag.ofPlain w = .null := List.all_iff_forall_prop.mp (by decide +kernel)
  rw [tags _ known]
  rfl

theorem isWord_truth {t : List Char} {b : Bool} (known : (String.ofList t, b) ∈ truths) :
    IsWord t (.bool b) := by
  refine isWord_of_spelling (truths.map Prod.fst) (by decide)
    (List.all_iff_forall_prop.mp (by decide)) (List.mem_map_of_mem known) ?_
  have tags : ∀ word ∈ truths, Tag.ofPlain word.1 = .bool ∧
      Tag.truthWords.lookup (Text.lower word.1) = some word.2 :=
    List.all_iff_forall_prop.mp (by decide +kernel)
  obtain ⟨tag, value⟩ := tags _ known
  rw [tag, Tag.value, value]

section Numbers

variable {t sign whole frac fraction exp expSign ds : List Char} {negative negative' : Bool}
  {exponent : Int} {e : Char}

theorem dropFinalNewline_of_notMem {s : String} (h : '\n' ∉ s.toList) : dropFinalNewline s = s := by
  have noEnd : ¬s.endsWith "\n" = true := by
    intro ends
    obtain ⟨front, eq⟩ :=
      String.Slice.endsWith_string_iff.mp (show s.toSlice.endsWith "\n" = true from ends)
    rw [String.copy_toSlice] at eq
    exact h (by rw [← eq]; simp)
  rw [dropFinalNewline, if_neg fun both => noEnd both.2]

/-- What begins with a numeral is neither null nor a truth value. -/
theorem not_named {s : String} {x : Char} (mem : x ∈ numerals) (front : s.toList.head? = some x) :
    Tag.isNull s = false ∧ Tag.isBool s = false := by
  have nulls : ∀ w ∈ "" :: "~" :: Tag.spellings "null", w.toList.head? ∉ numerals.map some := by
    decide +kernel
  have truths : ∀ w ∈ Tag.truthWords.flatMap fun word => Tag.spellings word.1,
      w.toList.head? ∉ numerals.map some := by
    decide +kernel
  have numeral : s.toList.head? ∈ numerals.map some := front ▸ List.mem_map_of_mem mem
  constructor
  · cases named : Tag.isNull s with
    | false => rfl
    | true =>
      rw [Tag.isNull, Bool.or_eq_true, Bool.or_eq_true, beq_iff_eq, beq_iff_eq] at named
      refine absurd numeral (nulls s ?_)
      simpa [or_assoc] using named
  · cases named : Tag.isBool s with
    | false => rfl
    | true =>
      obtain ⟨word, found, spelled⟩ := List.any_eq_true.mp named
      exact absurd numeral
        (truths s (List.mem_flatMap.mpr ⟨word, found, by simpa using spelled⟩))

/-- Without a point it is a whole number. -/
theorem tag_integer (sgn : Minus sign negative) (int : Whole whole) :
    Tag.isFloat (sign ++ whole) = false ∧ Tag.isInt (sign ++ whole) = true := by
  have digits := Json.isDigit_of_whole int
  have noPoint : '.' ∉ whole := fun mem => absurd (digits _ mem) (by decide)
  have unsigned := Number.isUnsigned_whole int
  obtain ⟨d, ds, rfl, digit⟩ := Json.exists_cons_of_whole int
  have drop := Number.dropSign_append sgn digit ds
  constructor
  · rw [Tag.isFloat, drop, Text.cut?_of_notMem noPoint]
  · rw [Tag.isInt, drop, unsigned]

/-- What consists of numerals is a number, a moment or a text. -/
theorem ofPlain_numerals (numeral : ∀ c ∈ t, c ∈ numerals) (nonempty : t ≠ []) :
    Tag.ofPlain (String.ofList t) =
      if Tag.isFloat t then .float
      else if Tag.isInt t then .int
      else if Moment.isMoment t then .timestamp else .text := by
  obtain ⟨c, first, front⟩ : ∃ c ∈ numerals, (String.ofList t).toList.head? = some c := by
    obtain ⟨c, cs, rfl⟩ := List.exists_cons_of_ne_nil nonempty
    exact ⟨c, numeral c List.mem_cons_self, by rw [String.toList_ofList, List.head?_cons]⟩
  have plain : dropFinalNewline (String.ofList t) = String.ofList t := by
    refine dropFinalNewline_of_notMem fun mem => ?_
    rw [String.toList_ofList] at mem
    exact absurd (numeral _ mem) (by decide)
  obtain ⟨notNull, notBool⟩ := not_named first front
  have marks : ∀ w ∈ "<<" :: "=" :: bareMarks, w.toList.head? ∉ numerals.map some := by decide
  have other : String.ofList t ∉ "<<" :: "=" :: bareMarks :=
    fun mem => marks _ mem (front ▸ List.mem_map_of_mem first)
  rw [List.mem_cons, List.mem_cons, not_or, not_or] at other
  simp [Tag.ofPlain, plain, notNull, notBool, other]

/-- A moment has a minus sign behind its fourth digit. -/
theorem not_isMoment (digits : ∀ c ∈ ds, c.isDigit = true) {x : Char} (noDigit : x.isDigit = false)
    (other : x ≠ '-' ∨ ds = []) (rest : List Char) : Moment.isMoment (ds ++ x :: rest) = false := by
  have none : Moment.parts? (ds ++ x :: rest) = none := by
    rw [Moment.parts?, Moment.digits?]
    by_cases long : 4 ≤ ds.length
    · have year : ∀ c ∈ ds.take 4, c.isDigit = true :=
        fun c hc => digits c (List.mem_of_mem_take hc)
      have taken : ((ds ++ x :: rest).take 4).takeWhile Char.isDigit = ds.take 4 := by
        rw [List.take_append_of_le_length long, List.takeWhile_eq_self_iff.mpr year]
      have behind : Moment.expect '-' ((ds ++ x :: rest).drop 4) = none := by
        rw [List.drop_append_of_le_length long]
        cases left : ds.drop 4 with
        | nil =>
          have noMinus : x ≠ '-' := other.resolve_right (by rintro rfl; simp at long)
          simp [Moment.expect, noMinus]
        | cons c cs =>
          have digit : c.isDigit = true :=
            digits c (List.mem_of_mem_drop (i := 4) (left ▸ List.mem_cons_self))
          have noMinus : c ≠ '-' := by
            rintro rfl
            cases digit
          simp [Moment.expect, noMinus]
      have length : (ds.take 4).length = 4 := by rw [List.length_take]; omega
      simp only [taken, length, Nat.le_refl, if_true]
      simp only [bind, Option.bind, behind]
    · have taken : ((ds ++ x :: rest).take 4).takeWhile Char.isDigit = ds := by
        obtain ⟨k, room⟩ : ∃ k, 4 - ds.length = k + 1 := ⟨3 - ds.length, by omega⟩
        rw [List.take_append, List.take_of_length_le (by omega), room, List.take_succ_cons,
          List.takeWhile_append_of_pos digits, List.takeWhile_cons, noDigit]
        simp
      simp only [taken, if_neg long]
      rfl
  rw [Moment.isMoment, none]

theorem numeral_digits (digits : ∀ c ∈ ds, c.isDigit = true) : ∀ c ∈ ds, c ∈ numerals :=
  fun c hc => List.mem_of_mem_take (mem_numerals_of_isDigit (digits c hc))

theorem numeral_minus (sgn : Minus sign negative) : ∀ c ∈ sign, c ∈ numerals := by
  cases sgn <;> simp [numerals]

theorem numeral_mark (mark : e = 'e' ∨ e = 'E') : e ∈ numerals := by
  rcases mark with rfl | rfl <;> decide

theorem numeral_signedExponent (h : SignedExponent exp exponent) : ∀ c ∈ exp, c ∈ numerals := by
  cases h with
  | absent => simp
  | plus mark _ digits | minus mark _ digits =>
    exact List.forall_mem_cons.mpr
      ⟨numeral_mark mark, List.forall_mem_cons.mpr ⟨by decide, numeral_digits digits⟩⟩

/-- A number, or what begins like one, is a word. -/
theorem isWord_of_numerals (sgn : Minus sign negative) (int : Whole whole) {rest : List Char}
    (numeral : ∀ c ∈ sign ++ (whole ++ rest), c ∈ numerals) {s : Scalar}
    (value : (Tag.ofPlain (String.ofList (sign ++ (whole ++ rest)))).value
      (String.ofList (sign ++ (whole ++ rest))) = .ok s) : IsWord (sign ++ (whole ++ rest)) s where
  chars := by
    have word : ∀ c ∈ numerals, IsWordChar c := List.all_iff_forall_prop.mp (by decide)
    exact fun c hc => word c (numeral c hc)
  front := by
    obtain ⟨d, ds, rfl, digit⟩ := Json.exists_cons_of_whole int
    have mem : d ∈ wordFronts := List.mem_append_left _ (mem_numerals_of_isDigit digit)
    cases sgn with
    | absent => exact ⟨d, mem, ds ++ rest, .inl rfl⟩
    | present => exact ⟨d, mem, ds ++ rest, .inr rfl⟩
  value := value

theorem ne_nil_of_whole (sign : List Char) (int : Whole whole) (rest : List Char) :
    sign ++ (whole ++ rest) ≠ [] := by
  cases int <;> simp

theorem isWord_integer (sgn : Minus sign negative) (int : Whole whole)
    (short : whole.length ≤ 4300) :
    IsWord (sign ++ whole) (.int (signed negative (spelled whole))) := by
  have numeral : ∀ c ∈ sign ++ (whole ++ []), c ∈ numerals := by
    rw [List.append_nil]
    exact List.forall_mem_append.mpr
      ⟨numeral_minus sgn, numeral_digits (Json.isDigit_of_whole int)⟩
  have word := isWord_of_numerals sgn int numeral (s := .int (signed negative (spelled whole)))
  obtain ⟨noFloat, isInt⟩ := tag_integer sgn int
  rw [ofPlain_numerals numeral (ne_nil_of_whole sign int [])] at word
  rw [List.append_nil] at numeral word
  refine word ?_
  rw [noFloat, isInt, if_neg (by decide), if_pos rfl, Tag.value,
    Number.int_eq sgn int short numeral]
  rfl

theorem isWord_real (sgn : Minus sign negative) (int : Whole whole)
    (digits : ∀ c ∈ fraction, c.isDigit = true) (expPart : SignedExponent exp exponent) :
    IsWord (sign ++ (whole ++ '.' :: (fraction ++ exp)))
      (.float (Double.ofDecimal negative (spelled (whole ++ fraction))
        (exponent - fraction.length))) := by
  have numeral : ∀ c ∈ sign ++ (whole ++ '.' :: (fraction ++ exp)), c ∈ numerals := by
    simp only [List.forall_mem_append, List.forall_mem_cons]
    exact ⟨numeral_minus sgn, numeral_digits (Json.isDigit_of_whole int), by decide,
      numeral_digits digits, numeral_signedExponent expPart⟩
  refine isWord_of_numerals sgn int numeral ?_
  rw [ofPlain_numerals numeral (ne_nil_of_whole sign int _),
    Number.isFloat_real sgn int digits expPart,
    if_pos rfl, Tag.value, Number.float_eq sgn int digits expPart numeral]
  rfl

/-- A point and a sign in front of the exponent are what makes a number of it. -/
theorem not_isFloat_short (sgn : Minus sign negative) (int : Whole whole)
    (fracPart : Fraction frac fraction) (mark : e = 'e' ∨ e = 'E')
    (expSgn : ExponentSign expSign negative') (nonempty : ds ≠ [])
    (digits : ∀ c ∈ ds, c.isDigit = true) (short : frac = [] ∨ expSign = []) :
    Tag.isFloat (sign ++ (whole ++ (frac ++ e :: (expSign ++ ds)))) = false := by
  have wholeDigits := Json.isDigit_of_whole int
  have noPoint : ∀ {cs : List Char}, (∀ c ∈ cs, c.isDigit = true) → '.' ∉ cs :=
    fun digits mem => absurd (digits _ mem) (by decide)
  have single : Tag.isSixtyBase whole = false := by
    rw [Tag.isSixtyBase, Number.split_colon (numeral_digits wholeDigits)]
  obtain ⟨d, w, rfl, digit⟩ := Json.exists_cons_of_whole int
  have drop := Number.dropSign_append sgn digit (w ++ (frac ++ e :: (expSign ++ ds)))
  rw [Tag.isFloat, List.cons_append, drop, ← List.cons_append]
  cases fracPart with
  | absent =>
    have none : '.' ∉ d :: w ++ ([] ++ e :: (expSign ++ ds)) := by
      have marks : e ≠ '.' := by rcases mark with rfl | rfl <;> decide
      have inSign : '.' ∉ expSign := by cases expSgn <;> simp
      simp only [List.nil_append, List.mem_append, List.mem_cons, not_or]
      exact ⟨List.mem_cons.not.mp (noPoint wholeDigits) |> not_or.mp, marks.symm, inSign,
        noPoint digits⟩
    rw [Text.cut?_of_notMem none]
  | present more fractionDigits =>
    obtain rfl := short.resolve_left (by simp)
    have behind : Tag.isFraction (fraction ++ e :: ([] ++ ds)) = false := by
      have other : Tag.isSpacedDigit e = false := by rcases mark with rfl | rfl <;> rfl
      obtain ⟨x, ds, rfl⟩ := List.exists_cons_of_ne_nil nonempty
      have noSign : x ≠ '+' ∧ x ≠ '-' := by
        constructor <;> (rintro rfl; cases digits _ List.mem_cons_self)
      rw [Tag.isFraction, List.dropWhile_append_of_pos fun c hc =>
        Number.isSpacedDigit_of_isDigit (fractionDigits c hc), List.dropWhile_cons, other]
      simp [Tag.isExponent, noSign]
    have cut := Text.cut?_append (noPoint wholeDigits) (fraction ++ e :: ([] ++ ds))
    rw [List.cons_append] at cut ⊢
    rw [List.cons_append, cut]
    simp only [behind, single, Bool.and_false, Bool.false_and, Bool.or_false]

theorem not_isInt_short (sgn : Minus sign negative) (int : Whole whole)
    (fracPart : Fraction frac fraction) (mark : e = 'e' ∨ e = 'E') {rest : List Char}
    (numeral : ∀ c ∈ whole ++ (frac ++ e :: rest), c ∈ numerals) :
    Tag.isInt (sign ++ (whole ++ (frac ++ e :: rest))) = false := by
  have unsigned : Tag.isUnsigned (whole ++ (frac ++ e :: rest)) = false := by
    cases int with
    | zero => cases fracPart <;> rcases mark with rfl | rfl <;> simp [Tag.isUnsigned]
    | @digits d w first nonzero others =>
      have other : Tag.isSpacedDigit e = false := by rcases mark with rfl | rfl <;> rfl
      unfold Tag.isUnsigned
      split
      case h_1 zero | h_2 zero | h_3 zero | h_4 zero => exact absurd (List.cons.inj zero).1 nonzero
      case h_5 =>
        rw [Number.split_colon numeral]
        simp [Tag.isSpacedNumber, other]
  obtain ⟨d, w, rfl, digit⟩ := Json.exists_cons_of_whole int
  have drop := Number.dropSign_append sgn digit (w ++ (frac ++ e :: rest))
  rw [List.cons_append] at unsigned ⊢
  rw [Tag.isInt, drop, unsigned]

theorem not_isMoment_short (sgn : Minus sign negative) (int : Whole whole)
    (fracPart : Fraction frac fraction) (mark : e = 'e' ∨ e = 'E') (rest : List Char) :
    Moment.isMoment (sign ++ (whole ++ (frac ++ e :: rest))) = false := by
  have digits := Json.isDigit_of_whole int
  cases sgn with
  | present =>
    have none : ∀ c ∈ ([] : List Char), c.isDigit = true := by simp
    have hyphen : '-'.isDigit = false := rfl
    exact not_isMoment none hyphen (.inr rfl) (whole ++ (frac ++ e :: rest))
  | absent =>
    rw [List.nil_append]
    cases fracPart with
    | absent => rcases mark with rfl | rfl <;> exact not_isMoment digits rfl (.inl (by decide)) rest
    | present => exact not_isMoment digits (x := '.') rfl (.inl (by decide)) (fraction ++ e :: rest)

/-- What only begins like a number is a text. -/
theorem isWord_short (sgn : Minus sign negative) (int : Whole whole)
    (fracPart : Fraction frac fraction) (mark : e = 'e' ∨ e = 'E')
    (expSgn : ExponentSign expSign negative') (nonempty : ds ≠ [])
    (digits : ∀ c ∈ ds, c.isDigit = true) (short : frac = [] ∨ expSign = []) :
    IsWord (sign ++ (whole ++ (frac ++ e :: (expSign ++ ds))))
      (.text (String.ofList (sign ++ (whole ++ (frac ++ e :: (expSign ++ ds)))))) := by
  have unsigned : ∀ c ∈ whole ++ (frac ++ e :: (expSign ++ ds)), c ∈ numerals := by
    have point : ∀ c ∈ frac, c ∈ numerals := by
      cases fracPart with
      | absent => simp
      | present _ digits => exact List.forall_mem_cons.mpr ⟨by decide, numeral_digits digits⟩
    have exponentSign : ∀ c ∈ expSign, c ∈ numerals := by cases expSgn <;> simp [numerals]
    simp only [List.forall_mem_append, List.forall_mem_cons]
    exact ⟨numeral_digits (Json.isDigit_of_whole int), point, numeral_mark mark, exponentSign,
      numeral_digits digits⟩
  have numeral := List.forall_mem_append.mpr ⟨numeral_minus sgn, unsigned⟩
  refine isWord_of_numerals sgn int numeral ?_
  rw [ofPlain_numerals numeral (ne_nil_of_whole sign int _),
    not_isFloat_short sgn int fracPart mark expSgn nonempty digits short,
    not_isInt_short sgn int fracPart mark unsigned, not_isMoment_short sgn int fracPart mark]
  rfl

end Numbers

/-- Each word of flow style stands for its value. -/
theorem isWord_of_word {t : List Char} {s : Scalar} (h : Flow.Word t s) : IsWord t s := by
  cases h with
  | null known => exact isWord_null known
  | truth known => exact isWord_truth known
  | integer sgn int short => exact isWord_integer sgn int short
  | real sgn int digits expPart => exact isWord_real sgn int digits expPart
  | text sgn int fracPart mark expSgn nonempty digits short =>
    exact isWord_short sgn int fracPart mark expSgn nonempty digits short

end RequestWriter.Yaml
