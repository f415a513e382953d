import RequestWriter.Proofs.Json.Token

/-!
# Reading strings

The reader of the inside of a string against the production `*char`. A first half of a surrogate
pair makes the reader wait for the second half, so the direction from the reader to the grammar
speaks about both states of the reader.
-/

namespace RequestWriter.Json

open Grammar

section Units

/-- A digit by its code: the digits lie in three ranges. -/
theorem hexDigit_iff {c : Char} {n : Nat} : HexDigit c n ↔
    48 ≤ c.toNat ∧ c.toNat ≤ 57 ∧ n = c.toNat - 48 ∨
      97 ≤ c.toNat ∧ c.toNat ≤ 102 ∧ n = c.toNat - 87 ∨
        65 ≤ c.toNat ∧ c.toNat ≤ 70 ∧ n = c.toNat - 55 := by
  have letter {start : Nat} (ten : 10 ≤ start) (low : start ≤ c.toNat) :
      10 + (c.toNat - start) = c.toNat - (start - 10) := by omega
  constructor
  · intro h
    cases h with
    | decimal low high => exact .inl ⟨low, high, rfl⟩
    | small low high => exact .inr (.inl ⟨low, high, letter (by decide) low⟩)
    | capital low high => exact .inr (.inr ⟨low, high, letter (by decide) low⟩)
  · rintro (⟨low, high, rfl⟩ | ⟨low, high, rfl⟩ | ⟨low, high, rfl⟩)
    · exact .decimal low high
    · rw [← letter (show 10 ≤ 97 by decide) low]
      exact .small low high
    · rw [← letter (show 10 ≤ 65 by decide) low]
      exact .capital low high

theorem hexDigit_lt {c : Char} {n : Nat} (h : HexDigit c n) : n < 16 := by
  rw [hexDigit_iff] at h
  omega

theorem hexDigit_printable {c : Char} {n : Nat} (h : HexDigit c n) : 0x20 ≤ c.toNat := by
  rw [hexDigit_iff] at h
  omega

theorem hexDigit_plain {c : Char} {n : Nat} (h : HexDigit c n) : c ≠ '\\' ∧ c ≠ '"' := by
  constructor <;> (rintro rfl; simp [hexDigit_iff] at h)

/-- A code unit is written in digits. -/
theorem hexDigit_of_mem {hex : List Char} {u : Nat} (h : CodeUnit hex u) :
    ∀ c ∈ hex, ∃ n, HexDigit c n := by
  obtain ⟨first, second, third, fourth⟩ := h
  simp only [List.forall_mem_cons]
  exact ⟨⟨_, first⟩, ⟨_, second⟩, ⟨_, third⟩, ⟨_, fourth⟩, List.forall_mem_nil _⟩

theorem codeUnit_plain {hex : List Char} {u : Nat} (h : CodeUnit hex u) :
    ∀ c ∈ hex, c ≠ '\\' ∧ c ≠ '"' := by
  intro c mem
  obtain ⟨n, digit⟩ := hexDigit_of_mem h c mem
  exact hexDigit_plain digit

theorem hexValue?_eq_some_iff {c : Char} {n : Nat} :
    Text.hexValue? c = some n ↔ HexDigit c n := by
  have le_iff (a b : Char) : a ≤ b ↔ a.toNat ≤ b.toNat := Iff.rfl
  simp only [hexDigit_iff, Text.hexValue?, le_iff, Char.reduceToNat]
  split
  · rw [Option.some.injEq]
    omega
  split
  · rw [Option.some.injEq]
    omega
  split
  · rw [Option.some.injEq]
    omega
  · simp only [reduceCtorEq, false_iff]
    omega

/-- Four digits are put together from the left. -/
theorem unit?_eq_bind (a b c d : Char) :
    unit? a b c d = (Text.hexValue? a).bind fun i => (Text.hexValue? b).bind fun j =>
      (Text.hexValue? c).bind fun k => (Text.hexValue? d).bind fun l =>
        some (((i * 16 + j) * 16 + k) * 16 + l) := by
  have long : 4 ≤ [a, b, c, d].length := Nat.le_refl 4
  rw [unit?, Text.hexNumber?, if_pos long]
  cases first : Text.hexValue? a <;> cases second : Text.hexValue? b <;>
    cases third : Text.hexValue? c <;> cases fourth : Text.hexValue? d <;>
    simp [first, second, third, fourth]
  omega

theorem unit?_eq_some_iff {a b c d : Char} {u : Nat} :
    unit? a b c d = some u ↔ CodeUnit [a, b, c, d] u := by
  simp only [unit?_eq_bind, Option.bind_eq_some_iff, hexValue?_eq_some_iff, Option.some.injEq]
  constructor
  · rintro ⟨i, first, j, second, k, third, l, fourth, rfl⟩
    exact .mk first second third fourth
  · rintro ⟨first, second, third, fourth⟩
    exact ⟨_, first, _, second, _, third, _, fourth, rfl⟩

theorem isHighHalf_iff {u : Nat} : isHighHalf u = true ↔ 0xD800 ≤ u ∧ u ≤ 0xDBFF := by
  simp only [isHighHalf, Bool.and_eq_true, decide_eq_true_eq]
  omega

theorem isLowHalf_iff {u : Nat} : isLowHalf u = true ↔ 0xDC00 ≤ u ∧ u ≤ 0xDFFF := by
  simp only [isLowHalf, Bool.and_eq_true, decide_eq_true_eq]
  omega

theorem escapeValue?_eq_some_iff {e c : Char} : escapeValue? e = some c ↔ Escape e c := by
  constructor
  · intro h
    unfold escapeValue? at h
    split at h <;> cases h <;> constructor
  · intro h
    cases h <;> rfl

end Units

/-- A string of the grammar is read up to its closing quote. -/
theorem stringBody?_append {t s : List Char} (h : Chars t s) (rest : List Char) :
    stringBody? none (t ++ '"' :: rest) = some (s, rest) := by
  induction h with
  | nil => simp [stringBody?]
  | @plain c t s printable noQuote noBackslash _ ih =>
    simp [stringBody?, noBackslash, noQuote, Nat.not_lt.mpr printable, ih]
  | @escape e c t s letter _ ih =>
    cases letter <;> simp [stringBody?, escapeValue?, ih]
  | @unit hex t s u digits whole _ ih =>
    obtain ⟨a, b, c, d, rfl⟩ : ∃ a b c d, hex = [a, b, c, d] := by
      cases digits
      exact ⟨_, _, _, _, rfl⟩
    have value := unit?_eq_some_iff.mpr digits
    have notHigh : isHighHalf u = false := by
      simp only [isHighHalf, Bool.and_eq_false_iff, decide_eq_false_iff_not]
      omega
    have notLow : isLowHalf u = false := by
      simp only [isLowHalf, Bool.and_eq_false_iff, decide_eq_false_iff_not]
      omega
    simp [stringBody?, value, notHigh, notLow, ih]
  | @pair hex hex' t s u u' high isHigh low isLow _ ih =>
    obtain ⟨a, b, c, d, rfl⟩ : ∃ a b c d, hex = [a, b, c, d] := by
      cases high
      exact ⟨_, _, _, _, rfl⟩
    obtain ⟨a', b', c', d', rfl⟩ : ∃ a b c d, hex' = [a, b, c, d] := by
      cases low
      exact ⟨_, _, _, _, rfl⟩
    have first := unit?_eq_some_iff.mpr high
    have second := unit?_eq_some_iff.mpr low
    simp [stringBody?, first, second, isHighHalf_iff.mpr isHigh, isLowHalf_iff.mpr isLow, ih,
      pairChar]

/-- What the reader has seen when it ends with these characters: a string, or, when a first half
waits, the second half and a string. -/
def Seen (cs s rest : List Char) : Option Nat → Prop
  | none => ∃ t, cs = t ++ '"' :: rest ∧ Chars t s
  | some u => ∃ hex u' t s', cs = '\\' :: 'u' :: hex ++ (t ++ '"' :: rest) ∧ CodeUnit hex u' ∧
      (0xDC00 ≤ u' ∧ u' ≤ 0xDFFF) ∧ Chars t s' ∧ s = pairChar u u' :: s'

/-- One more character at the front of a string that was read. -/
theorem Seen.cons {t cs rest s : List Char} {x : Char}
    (production : ∀ {t' s'}, Chars t' s' → Chars (t ++ t') (x :: s'))
    (ih : ∀ {s}, stringBody? none cs = some (s, rest) → Seen cs s rest none)
    (h : (stringBody? none cs).map (fun p => (x :: p.1, p.2)) = some (s, rest)) :
    Seen (t ++ cs) s rest none := by
  obtain ⟨⟨s', rest'⟩, read, ends⟩ := Option.map_eq_some_iff.mp h
  cases ends
  obtain ⟨t', rfl, chars⟩ := ih read
  exact ⟨t ++ t', by rw [List.append_assoc], production chars⟩

theorem stringBody?_seen (high : Option Nat) (cs : List Char) {s rest : List Char}
    (h : stringBody? high cs = some (s, rest)) : Seen cs s rest high := by
  fun_induction stringBody? high cs generalizing s with
  | case3 a b c d cs low high unit isLow ih =>
    obtain ⟨⟨s', rest'⟩, read, ends⟩ := Option.map_eq_some_iff.mp h
    cases ends
    obtain ⟨t, rfl, chars⟩ := ih read
    exact ⟨[a, b, c, d], low, t, s', rfl, unit?_eq_some_iff.mp unit, isLowHalf_iff.mp isLow, chars,
      rfl⟩
  | case5 a b c d cs u unit isHigh ih =>
    obtain ⟨hex, u', t, s', rfl, low, isLow, chars, rfl⟩ := ih h
    refine ⟨'\\' :: 'u' :: [a, b, c, d] ++ ('\\' :: 'u' :: hex ++ t), by simp, ?_⟩
    exact .pair (unit?_eq_some_iff.mp unit) (isHighHalf_iff.mp isHigh) low isLow chars
  | case7 a b c d cs u unit notHigh notLow ih =>
    refine Seen.cons (t := '\\' :: 'u' :: [a, b, c, d]) (fun chars => ?_) ih h
    rw [isHighHalf_iff] at notHigh
    rw [isLowHalf_iff] at notLow
    exact .unit (unit?_eq_some_iff.mp unit) (by omega) chars
  | case8 e cs _ c letter ih =>
    exact Seen.cons (t := ['\\', e])
      (fun chars => .escape (escapeValue?_eq_some_iff.mp letter) chars) ih h
  | case11 high cs _ _ state =>
    cases h
    cases high with
    | none => exact ⟨[], rfl, .nil⟩
    | some u => simp at state
  | case12 high c cs noUnit noEscape state noQuote ih =>
    cases high with
    | some u => simp at state
    | none =>
      simp only [Option.isSome_none, Bool.false_or, decide_eq_true_eq, Nat.not_lt] at state
      -- A backslash that is the last character of the text is no escape, but no string ends there.
      have noBackslash : c ≠ '\\' := by
        rintro rfl
        cases cs with
        | nil => simp [stringBody?] at h
        | cons e cs => exact noEscape e cs rfl rfl
      exact Seen.cons (t := [c]) (fun chars => .plain state noQuote noBackslash chars) ih h
  | _ => cases h

/-- Whatever is read as a string is a string of the grammar. -/
theorem stringBody?_sound {cs s rest : List Char} (h : stringBody? none cs = some (s, rest)) :
    ∃ t, cs = t ++ '"' :: rest ∧ Chars t s :=
  stringBody?_seen none cs h

end RequestWriter.Json
