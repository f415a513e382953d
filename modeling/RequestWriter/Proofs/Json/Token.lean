import RequestWriter.Proofs.Json.Grammar
import RequestWriter.Json.Reader

/-!
# Ends of tokens and numbers

What the reader does at the front of a text depends on where a token ends. The reader of a number
takes as many characters as it can, so it finds exactly the number of a derivation when the text
behind it begins with a blank, a comma or a closing bracket, and in any case what it takes is a
number of the grammar.
-/

namespace RequestWriter.Json

open Grammar

/-- The text is empty or its first character belongs to the class. -/
def Starts (p : Char → Prop) (cs : List Char) : Prop := ∀ c, cs.head? = some c → p c

@[simp] theorem starts_nil (p : Char → Prop) : Starts p [] := by
  intro c h
  cases h

@[simp] theorem starts_cons (p : Char → Prop) (c : Char) (cs : List Char) :
    Starts p (c :: cs) ↔ p c := by
  constructor
  · intro h
    exact h c rfl
  · rintro h d ⟨⟩
    exact h

theorem Starts.mono {p q : Char → Prop} {cs : List Char} (h : Starts p cs)
    (imp : ∀ c, p c → q c) : Starts q cs :=
  fun c hc => imp c (h c hc)

/-- A blank, a mark that follows an item or a semicolon: no character that goes on with a token. -/
def IsEnd (c : Char) : Prop := isSpace c ∨ c = ',' ∨ c = ']' ∨ c = '\x7d' ∨ c = ';'

instance : DecidablePred IsEnd := fun c =>
  inferInstanceAs (Decidable (isSpace c ∨ c = ',' ∨ c = ']' ∨ c = '\x7d' ∨ c = ';'))

/-- A token that is a whole number may stand in front of this text. -/
def Ends (cs : List Char) : Prop := Starts IsEnd cs

theorem isSpace_iff {c : Char} : isSpace c = true ↔ IsBlank c := by
  simp [isSpace, IsBlank, or_assoc]

theorem isSpace_of_mem {b : Blanks} {c : Char} (h : c ∈ b.1) : isSpace c = true :=
  isSpace_iff.mpr (b.2 c h)

@[simp] theorem skipSpaces_nil : skipSpaces [] = [] := rfl

theorem skipSpaces_append {b : List Char} (hb : ∀ c ∈ b, isSpace c = true) (cs : List Char) :
    skipSpaces (b ++ cs) = skipSpaces cs :=
  List.dropWhile_append_of_pos hb

theorem skipSpaces_blanks (b : Blanks) (cs : List Char) : skipSpaces (b.1 ++ cs) = skipSpaces cs :=
  skipSpaces_append (fun _ hc => isSpace_of_mem hc) cs

theorem skipSpaces_cons {c : Char} (h : isSpace c = false) (cs : List Char) :
    skipSpaces (c :: cs) = c :: cs := by
  simp [skipSpaces, h]

/-- What the reader skips are the blanks of the grammar. -/
theorem exists_blanks (cs : List Char) : ∃ b : Blanks, cs = b ++ skipSpaces cs := by
  refine ⟨⟨cs.takeWhile isSpace, ?_⟩, List.takeWhile_append_dropWhile.symm⟩
  intro c hc
  exact isSpace_iff.mp (List.all_eq_true.mp List.all_takeWhile c hc)

theorem ends_append {b : List Char} (hb : ∀ c ∈ b, isSpace c = true) {cs : List Char}
    (h : Ends cs) : Ends (b ++ cs) := by
  cases b with
  | nil => exact h
  | cons c b =>
    rw [List.cons_append, Ends, starts_cons]
    exact .inl (hb c List.mem_cons_self)

/-- Neither a digit nor anything else that could go on with a number ends a token. -/
theorem not_number_of_end {c : Char} (h : IsEnd c) :
    c.isDigit = false ∧ c ≠ '.' ∧ c ≠ 'e' ∧ c ≠ 'E' := by
  simp only [IsEnd, isSpace, Bool.or_eq_true, beq_iff_eq] at h
  rcases h with (((rfl | rfl) | rfl) | rfl) | rfl | rfl | rfl | rfl <;> decide

section Digits

theorem natOfDigits_eq (digits : List Char) : natOfDigits digits = spelled digits := rfl

theorem spanDigits_append {ds rest : List Char} (digits : ∀ c ∈ ds, c.isDigit = true)
    (stop : Starts (fun c => c.isDigit = false) rest) : spanDigits (ds ++ rest) = (ds, rest) := by
  have taken : rest.takeWhile Char.isDigit = [] := by
    cases rest with
    | nil => rfl
    | cons c rest => simp [(starts_cons _ c rest).mp stop]
  have left : rest.dropWhile Char.isDigit = rest := by
    cases rest with
    | nil => rfl
    | cons c rest => simp [(starts_cons _ c rest).mp stop]
  rw [spanDigits, List.takeWhile_append_of_pos digits, List.dropWhile_append_of_pos digits,
    taken, left, List.append_nil]

theorem spanDigits_sound (cs : List Char) :
    cs = (spanDigits cs).1 ++ (spanDigits cs).2 ∧ ∀ c ∈ (spanDigits cs).1, c.isDigit = true :=
  ⟨List.takeWhile_append_dropWhile.symm, List.all_eq_true.mp List.all_takeWhile⟩

end Digits

section Parts

theorem wholePart?_append {whole rest : List Char} (h : Whole whole)
    (stop : Starts (fun c => c.isDigit = false) rest) :
    wholePart? (whole ++ rest) = some (whole, rest) := by
  cases h with
  | zero => rfl
  | @digits d ds first nonzero digits =>
    have span : spanDigits (d :: ds ++ rest) = (d :: ds, rest) := by
      apply spanDigits_append _ stop
      intro c hc
      rcases List.mem_cons.mp hc with rfl | hc
      · exact first
      · exact digits c hc
    rw [List.cons_append] at span ⊢
    simp [wholePart?, nonzero, span]

theorem wholePart?_sound {cs whole rest : List Char} (h : wholePart? cs = some (whole, rest)) :
    cs = whole ++ rest ∧ Whole whole := by
  unfold wholePart? at h
  split at h
  · cases h
    exact ⟨rfl, .zero⟩
  · next nonzero =>
    obtain ⟨split, digits⟩ := spanDigits_sound cs
    by_cases none : (spanDigits cs).1 = []
    · simp [none] at h
    · simp only [List.isEmpty_iff, none, if_false, Option.some.injEq] at h
      rw [h] at split digits none
      refine ⟨split, ?_⟩
      obtain ⟨d, ds, rfl⟩ := List.exists_cons_of_ne_nil none
      refine .digits (digits d List.mem_cons_self) ?_ fun c hc =>
        digits c (List.mem_cons_of_mem d hc)
      rintro rfl
      exact nonzero _ split

theorem fractionPart_append {frac fraction rest : List Char} (h : Fraction frac fraction)
    (stop : Starts (fun c => c.isDigit = false ∧ c ≠ '.') rest) :
    fractionPart (frac ++ rest) = (fraction, rest) := by
  cases h with
  | absent =>
    cases rest with
    | nil => rfl
    | cons c rest => simp [fractionPart, ((starts_cons _ c rest).mp stop).2]
  | present nonempty digits =>
    have span := spanDigits_append digits (stop.mono fun _ hc => hc.1)
    simp [fractionPart, span, nonempty]

theorem fractionPart_sound {cs fraction rest : List Char}
    (h : fractionPart cs = (fraction, rest)) :
    ∃ frac, cs = frac ++ rest ∧ Fraction frac fraction := by
  unfold fractionPart at h
  split at h
  · next cs =>
    obtain ⟨split, digits⟩ := spanDigits_sound cs
    by_cases none : (spanDigits cs).1 = []
    · simp only [none, List.isEmpty_nil, if_true, Prod.mk.injEq] at h
      obtain ⟨rfl, rfl⟩ := h
      exact ⟨[], rfl, .absent⟩
    · simp only [List.isEmpty_iff, none, if_false] at h
      rw [h] at split digits none
      exact ⟨'.' :: fraction, by rw [split]; rfl, .present none digits⟩
  · cases h
    exact ⟨[], rfl, .absent⟩

/-- A digit is no sign. -/
theorem exponentSign_append {sign ds : List Char} {negative : Bool}
    (h : ExponentSign sign negative) (nonempty : ds ≠ []) (digits : ∀ c ∈ ds, c.isDigit = true)
    (rest : List Char) :
    exponentSign (sign ++ (ds ++ rest)) = (negative, ds ++ rest) := by
  cases h with
  | absent =>
    obtain ⟨d, ds, rfl⟩ := List.exists_cons_of_ne_nil nonempty
    have digit := digits d List.mem_cons_self
    have notMinus : d ≠ '-' := by rintro rfl; cases digit
    have notPlus : d ≠ '+' := by rintro rfl; cases digit
    simp [exponentSign, notMinus, notPlus]
  | plus => rfl
  | minus => rfl

theorem exponentSign_sound {cs rest : List Char} {negative : Bool}
    (h : exponentSign cs = (negative, rest)) :
    ∃ sign, cs = sign ++ rest ∧ ExponentSign sign negative := by
  unfold exponentSign at h
  split at h
  · cases h
    exact ⟨['-'], rfl, .minus⟩
  · cases h
    exact ⟨['+'], rfl, .plus⟩
  · cases h
    exact ⟨[], rfl, .absent⟩

theorem exponentPart_append {exp rest : List Char} {exponent : Option Int}
    (h : Exponent exp exponent)
    (stop : Starts (fun c => c.isDigit = false ∧ c ≠ 'e' ∧ c ≠ 'E') rest) :
    exponentPart (exp ++ rest) = (exponent, rest) := by
  cases h with
  | absent =>
    cases rest with
    | nil => rfl
    | cons c rest =>
      obtain ⟨-, small, capital⟩ := (starts_cons _ c rest).mp stop
      simp [exponentPart, small, capital]
  | @present e sign ds negative mark sgn nonempty digits =>
    have span := spanDigits_append digits (stop.mono fun _ hc => hc.1)
    have signed := exponentSign_append sgn nonempty digits rest
    rw [List.append_assoc, List.cons_append]
    simp [exponentPart, mark, signed, span, nonempty, natOfDigits_eq, Grammar.signed]

theorem exponentPart_sound {cs rest : List Char} {exponent : Option Int}
    (h : exponentPart cs = (exponent, rest)) :
    ∃ exp, cs = exp ++ rest ∧ Exponent exp exponent := by
  have refused : ∀ {cs}, ((none : Option Int), cs) = (exponent, rest) →
      ∃ exp, cs = exp ++ rest ∧ Exponent exp exponent := by
    rintro cs ⟨⟩
    exact ⟨[], rfl, .absent⟩
  unfold exponentPart at h
  split at h
  · next e cs =>
    split at h
    · next mark =>
      obtain ⟨sign, signSplit, sgn⟩ := exponentSign_sound (Prod.eta (exponentSign cs)).symm
      obtain ⟨split, digits⟩ := spanDigits_sound (exponentSign cs).2
      dsimp only at h
      by_cases none : (spanDigits (exponentSign cs).2).1 = []
      · rw [none] at h
        exact refused h
      · simp only [List.isEmpty_iff, none, if_false, Prod.mk.injEq] at h
        obtain ⟨rfl, rfl⟩ := h
        refine ⟨e :: sign ++ (spanDigits (exponentSign cs).2).1, ?_,
          .present mark sgn none digits⟩
        rw [List.append_assoc, ← split, List.cons_append, ← signSplit]
    · exact refused h
  · exact refused h

end Parts

end RequestWriter.Json
