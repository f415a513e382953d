import RequestWriter.Proofs.Json.Token

/-!
# Reading numbers

The reader of a number against the production of the grammar, in both directions. It takes the
longest number at the front, so the direction from the grammar asks that the text behind it ends
the token.
-/

namespace RequestWriter.Json

open Grammar

theorem starts_whole {whole : List Char} (h : Whole whole) (rest : List Char) :
    Starts (fun c => c.isDigit = true) (whole ++ rest) := by
  cases h with
  | zero => simp
  | digits first => simpa using first

/-- Behind the digits of a whole part stands no further digit. -/
theorem starts_fraction {frac fraction rest : List Char} (h : Fraction frac fraction)
    (stop : Starts (fun c => c.isDigit = false ∧ c ≠ '.') rest) :
    Starts (fun c => c.isDigit = false) (frac ++ rest) := by
  cases h with
  | absent => exact stop.mono fun _ hc => hc.1
  | present => simp [show ('.' : Char).isDigit = false from rfl]

/-- Behind a fraction stands neither a digit nor a point. -/
theorem starts_exponent {exp rest : List Char} {exponent : Option Int}
    (h : Exponent exp exponent) (stop : Ends rest) :
    Starts (fun c => c.isDigit = false ∧ c ≠ '.') (exp ++ rest) := by
  cases h with
  | absent =>
    exact Starts.mono stop fun _ hc => ⟨(not_number_of_end hc).1, (not_number_of_end hc).2.1⟩
  | present mark =>
    rw [List.append_assoc, List.cons_append, starts_cons]
    rcases mark with rfl | rfl <;> decide

theorem numberSign_append {sign rest : List Char} {negative : Bool} (h : Minus sign negative)
    (digit : Starts (fun c => c.isDigit = true) rest) :
    numberSign (sign ++ rest) = (negative, rest) := by
  cases h with
  | absent =>
    cases rest with
    | nil => rfl
    | cons c rest =>
      have : c ≠ '-' := by
        rintro rfl
        cases (starts_cons _ _ _).mp digit
      simp [numberSign, this]
  | present => rfl

theorem numberSign_sound {cs rest : List Char} {negative : Bool}
    (h : numberSign cs = (negative, rest)) :
    ∃ sign, cs = sign ++ rest ∧ Minus sign negative := by
  unfold numberSign at h
  split at h
  · cases h
    exact ⟨['-'], rfl, .present⟩
  · cases h
    exact ⟨[], rfl, .absent⟩

theorem numberValue?_integer {negative : Bool} {whole : List Char} :
    numberValue? negative whole [] none =
      if whole.length ≤ 4300 then some (.int (signed negative (spelled whole))) else none := rfl

theorem numberValue?_float {negative : Bool} {whole fraction : List Char} {exponent : Option Int}
    (form : fraction ≠ [] ∨ exponent ≠ none) :
    numberValue? negative whole fraction exponent =
      if (double negative whole fraction exponent).isFinite then
        some (.scalar (.float (double negative whole fraction exponent))) else none := by
  unfold numberValue?
  split
  · simp at form
  · rfl

/-- A number is the sequence of its parts, each of them as long as it can be. -/
theorem number?_of_parts {cs afterSign afterWhole afterFraction rest whole fraction : List Char}
    {negative : Bool} {exponent : Option Int} (sgn : numberSign cs = (negative, afterSign))
    (int : wholePart? afterSign = some (whole, afterWhole))
    (frac : fractionPart afterWhole = (fraction, afterFraction))
    (exp : exponentPart afterFraction = (exponent, rest)) :
    number? cs = (numberValue? negative whole fraction exponent).map fun v => (v, rest) := by
  simp [number?, sgn, int, frac, exp]

/-- Every number of the grammar is read as a whole where a token ends. -/
theorem number?_append {t rest : List Char} {v : Value} (h : Number t v) (stop : Ends rest) :
    number? (t ++ rest) = some (v, rest) := by
  cases h with
  | @integer sign whole negative sgn int short =>
    have noPoint := starts_exponent .absent stop
    have noDigit := starts_fraction .absent noPoint
    rw [List.append_assoc, number?_of_parts (numberSign_append sgn (starts_whole int rest))
      (wholePart?_append int noDigit) (fractionPart_append .absent noPoint)
      (exponentPart_append .absent (stop.mono fun _ hc => ?_)), numberValue?_integer, if_pos short]
    · rfl
    · have := not_number_of_end hc
      exact ⟨this.1, this.2.2⟩
  | @float sign whole frac fraction exp negative exponent sgn int fracPart expPart form finite =>
    have noPoint := starts_exponent expPart stop
    have noDigit := starts_fraction fracPart noPoint
    have noMark : Starts (fun c => c.isDigit = false ∧ c ≠ 'e' ∧ c ≠ 'E') rest :=
      stop.mono fun _ hc => ⟨(not_number_of_end hc).1, (not_number_of_end hc).2.2⟩
    simp only [List.append_assoc]
    rw [number?_of_parts (numberSign_append sgn (starts_whole int _))
      (wholePart?_append int noDigit) (fractionPart_append fracPart noPoint)
      (exponentPart_append expPart noMark), numberValue?_float form, if_pos finite]
    rfl

/-- Whatever is read as a number is a number of the grammar. -/
theorem number?_sound {cs rest : List Char} {v : Value} (h : number? cs = some (v, rest)) :
    ∃ t, cs = t ++ rest ∧ Number t v := by
  obtain ⟨negative, afterSign, sgnEq⟩ : ∃ negative after, numberSign cs = (negative, after) :=
    ⟨_, _, rfl⟩
  obtain ⟨sign, rfl, sgn⟩ := numberSign_sound sgnEq
  cases intEq : wholePart? afterSign with
  | none => simp [number?, sgnEq, intEq] at h
  | some parts =>
    obtain ⟨whole, afterWhole⟩ := parts
    obtain ⟨rfl, int⟩ := wholePart?_sound intEq
    obtain ⟨fraction, afterFraction, fracEq⟩ :
        ∃ fraction after, fractionPart afterWhole = (fraction, after) := ⟨_, _, rfl⟩
    obtain ⟨frac, rfl, fracPart⟩ := fractionPart_sound fracEq
    obtain ⟨exponent, after, expEq⟩ :
        ∃ exponent after, exponentPart afterFraction = (exponent, after) := ⟨_, _, rfl⟩
    obtain ⟨exp, rfl, expPart⟩ := exponentPart_sound expEq
    rw [number?_of_parts sgnEq intEq fracEq expEq, Option.map_eq_some_iff] at h
    obtain ⟨w, value, ends⟩ := h
    cases ends
    by_cases form : fraction ≠ [] ∨ exponent ≠ none
    · rw [numberValue?_float form] at value
      split at value
      · next finite =>
        cases value
        exact ⟨sign ++ whole ++ frac ++ exp, by simp, .float sgn int fracPart expPart form finite⟩
      · cases value
    · simp only [ne_eq, not_or, Decidable.not_not] at form
      obtain ⟨rfl, rfl⟩ := form
      obtain rfl : frac = [] := by
        cases fracPart with
        | absent => rfl
        | present nonempty => exact absurd rfl nonempty
      cases expPart
      rw [numberValue?_integer] at value
      split at value
      · next short =>
        cases value
        exact ⟨sign ++ whole, by simp, .integer sgn int short⟩
      · cases value

end RequestWriter.Json
