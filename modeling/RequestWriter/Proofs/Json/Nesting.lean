import RequestWriter.Proofs.Json.Sequence
import RequestWriter.Proofs.Json.Chars

/-!
# Nesting of texts

How deep a text is nested is a property of its characters: the greatest number of brackets that are
open at one place, where brackets inside strings do not count. It is defined for every text, also
for one that is no JSON text. A text of the grammar is balanced, so its nesting adds to the level at
which it stands, and an item of a container is nested less deep than the container.
-/

namespace RequestWriter.Json

open Grammar

/-- Where a character of a text stands: outside of strings, inside of one, or behind a backslash
inside of one. -/
inductive Place where
  | outside
  | inside
  | escaped

/-- The greatest number of open brackets from a place on, with `level` brackets open there. -/
def deepest : Place → Nat → List Char → Nat
  | _, level, [] => level
  | .outside, level, c :: cs =>
    if c = '"' then deepest .inside level cs
    else if c = '[' ∨ c = '\x7b' then deepest .outside (level + 1) cs
    else if c = ']' ∨ c = '\x7d' then max level (deepest .outside (level - 1) cs)
    else deepest .outside level cs
  | .inside, level, c :: cs =>
    if c = '\\' then deepest .escaped level cs
    else if c = '"' then deepest .outside level cs
    else deepest .inside level cs
  | .escaped, level, _ :: cs => deepest .inside level cs

/-- How deep a text is nested. -/
def nesting (cs : List Char) : Nat := deepest .outside 0 cs

theorem le_deepest (place : Place) (level : Nat) (cs : List Char) :
    level ≤ deepest place level cs := by
  fun_induction deepest place level cs <;> omega

/-- The text adds its nesting to the level at which it stands, and leaves the level as it was. -/
def Balanced (t : List Char) : Prop :=
  ∀ level rest, deepest .outside level (t ++ rest) =
    max (level + nesting t) (deepest .outside level rest)

/-- Neither a quote nor a bracket. -/
def IsFlat (c : Char) : Prop :=
  c ≠ '"' ∧ c ≠ '[' ∧ c ≠ ']' ∧ c ≠ '\x7b' ∧ c ≠ '\x7d'

theorem deepest_flat {t : List Char} (flat : ∀ c ∈ t, IsFlat c) (level : Nat) (rest : List Char) :
    deepest .outside level (t ++ rest) = deepest .outside level rest := by
  induction t with
  | nil => rfl
  | cons c t ih =>
    obtain ⟨quote, list, list', object, object'⟩ := flat c List.mem_cons_self
    rw [List.cons_append, deepest, if_neg quote, if_neg (by simp [list, object]),
      if_neg (by simp [list', object'])]
    exact ih fun c hc => flat c (List.mem_cons_of_mem _ hc)

/-- A text that changes no level and opens nothing is balanced. -/
theorem Balanced.of_deepest {t : List Char}
    (h : ∀ level rest, deepest .outside level (t ++ rest) = deepest .outside level rest) :
    Balanced t ∧ nesting t = 0 := by
  have zero : nesting t = 0 := by
    have := h 0 []
    rwa [List.append_nil] at this
  refine ⟨fun level rest => ?_, zero⟩
  have := le_deepest .outside level rest
  rw [h, zero]
  omega

theorem Balanced.of_flat {t : List Char} (flat : ∀ c ∈ t, IsFlat c) : Balanced t :=
  (Balanced.of_deepest (deepest_flat flat)).1

theorem Balanced.append {s t : List Char} (hs : Balanced s) (ht : Balanced t) :
    Balanced (s ++ t) ∧ nesting (s ++ t) = max (nesting s) (nesting t) := by
  have sum : nesting (s ++ t) = max (nesting s) (nesting t) := by
    have := hs 0 t
    rwa [Nat.zero_add] at this
  refine ⟨fun level rest => ?_, sum⟩
  rw [List.append_assoc, hs, ht, sum]
  omega

/-- Brackets around a balanced text are one more level. -/
theorem Balanced.bracket {t : List Char} {opening closing : Char}
    (pair : opening = '[' ∧ closing = ']' ∨ opening = '\x7b' ∧ closing = '\x7d')
    (ht : Balanced t) :
    Balanced (opening :: t ++ [closing]) ∧ nesting (opening :: t ++ [closing]) = nesting t + 1 := by
  have run : ∀ level rest, deepest .outside level (opening :: t ++ [closing] ++ rest) =
      max (level + (nesting t + 1)) (deepest .outside level rest) := by
    intro level rest
    have opens : ∀ cs,
        deepest .outside level (opening :: cs) = deepest .outside (level + 1) cs := by
      intro cs
      rcases pair with ⟨rfl, -⟩ | ⟨rfl, -⟩ <;> simp [deepest]
    have closes : ∀ cs, deepest .outside (level + 1) (closing :: cs) =
        max (level + 1) (deepest .outside level cs) := by
      intro cs
      rcases pair with ⟨-, rfl⟩ | ⟨-, rfl⟩ <;> simp [deepest]
    have shape : opening :: t ++ [closing] ++ rest = opening :: (t ++ closing :: rest) := by simp
    rw [shape, opens, ht, closes]
    omega
  have sum : nesting (opening :: t ++ [closing]) = nesting t + 1 := by
    have := run 0 []
    rw [List.append_nil] at this
    simpa [nesting, deepest] using this
  refine ⟨fun level rest => ?_, sum⟩
  rw [run, sum]

/-- Commas change nothing, and each part is nested at most as deep as the whole. -/
theorem Balanced.commas {ts : List (List Char)} (h : ∀ t ∈ ts, Balanced t) :
    Balanced (commas ts) ∧ ∀ t ∈ ts, nesting t ≤ nesting (Grammar.commas ts) := by
  induction ts with
  | nil => exact ⟨.of_flat (by simp [Grammar.commas]), by simp⟩
  | cons t ts ih =>
    have first := h t List.mem_cons_self
    obtain ⟨others, bound⟩ := ih fun t ht => h t (List.mem_cons_of_mem _ ht)
    cases ts with
    | nil => simpa using first
    | cons u ts =>
      have comma : Balanced [','] := .of_flat (by simp [IsFlat])
      obtain ⟨tail, tailNesting⟩ := comma.append others
      obtain ⟨whole, wholeNesting⟩ := first.append tail
      have shape : Grammar.commas (t :: u :: ts) = t ++ ([','] ++ Grammar.commas (u :: ts)) :=
        commas_cons_cons t u ts
      rw [shape]
      refine ⟨whole, fun v hv => ?_⟩
      rcases List.mem_cons.mp hv with rfl | hv
      · omega
      · have := bound v hv
        omega

section Parts

theorem isFlat_blank {c : Char} (h : IsBlank c) : IsFlat c := by
  rcases h with rfl | rfl | rfl | rfl <;> simp [IsFlat]

theorem isFlat_digit {c : Char} (h : c.isDigit = true) : IsFlat c := by
  refine ⟨?_, ?_, ?_, ?_, ?_⟩ <;> (rintro rfl; cases h)

/-- A number is spelled with digits, signs, a point and the mark of an exponent. -/
theorem mem_number {t : List Char} {v : Value} (h : Number t v) :
    ∀ c ∈ t, c.isDigit = true ∨ c ∈ ['-', '+', '.', 'e', 'E'] := by
  have minus : ∀ {sign negative}, Minus sign negative → ∀ c ∈ sign, c ∈ ['-'] := by
    rintro _ _ (_ | _) <;> simp
  have whole : ∀ {ds}, Whole ds → ∀ c ∈ ds, c.isDigit = true := by
    rintro _ (_ | ⟨first, _, rest⟩) c hc
    · rcases List.mem_singleton.mp hc with rfl
      rfl
    · rcases List.mem_cons.mp hc with rfl | hc
      · exact first
      · exact rest c hc
  have fraction : ∀ {frac ds}, Fraction frac ds → ∀ c ∈ frac, c.isDigit = true ∨ c = '.' := by
    rintro _ _ (_ | ⟨-, digits⟩) c hc
    · cases hc
    · rcases List.mem_cons.mp hc with rfl | hc
      · exact .inr rfl
      · exact .inl (digits c hc)
  have exponent : ∀ {exp x}, Exponent exp x →
      ∀ c ∈ exp, c.isDigit = true ∨ c ∈ ['-', '+', 'e', 'E'] := by
    rintro _ _ (_ | ⟨mark, sgn, -, digits⟩) c hc
    · cases hc
    · rcases List.mem_append.mp hc with hc | hc
      · rcases List.mem_cons.mp hc with rfl | hc
        · rcases mark with rfl | rfl <;> simp
        · cases sgn <;> simp at hc <;> simp [hc]
      · exact .inl (digits c hc)
  intro c hc
  cases h with
  | integer sgn int =>
    rcases List.mem_append.mp hc with hc | hc
    · have := minus sgn c hc
      grind
    · exact .inl (whole int c hc)
  | float sgn int fracPart expPart =>
    simp only [List.mem_append] at hc
    rcases hc with ((hc | hc) | hc) | hc
    · have := minus sgn c hc
      grind
    · exact .inl (whole int c hc)
    · have := fraction fracPart c hc
      grind
    · have := exponent expPart c hc
      grind

theorem isFlat_number {t : List Char} {v : Value} (h : Number t v) : ∀ c ∈ t, IsFlat c := by
  intro c hc
  rcases mem_number h c hc with digit | mark
  · exact isFlat_digit digit
  · simp only [List.mem_cons, List.not_mem_nil, or_false] at mark
    rcases mark with rfl | rfl | rfl | rfl | rfl <;> simp [IsFlat]

theorem deepest_plain {cs : List Char} (h : ∀ c ∈ cs, c ≠ '\\' ∧ c ≠ '"') (level : Nat)
    (rest : List Char) : deepest .inside level (cs ++ rest) = deepest .inside level rest := by
  induction cs with
  | nil => rfl
  | cons c cs ih =>
    rw [List.forall_mem_cons] at h
    rw [List.cons_append, deepest, if_neg h.1.1, if_neg h.1.2, ih h.2]

theorem deepest_unit {hex : List Char} {u : Nat} (h : CodeUnit hex u) (level : Nat)
    (rest : List Char) : deepest .inside level ('\\' :: 'u' :: hex ++ rest) =
      deepest .inside level rest := by
  simpa [deepest] using deepest_plain (codeUnit_plain h) level rest

/-- A string is passed over, whatever stands in it. -/
theorem deepest_chars {t s : List Char} (h : Chars t s) (level : Nat) (rest : List Char) :
    deepest .inside level (t ++ '"' :: rest) = deepest .outside level rest := by
  induction h with
  | nil => simp [deepest]
  | plain _ noQuote noBackslash _ ih => simpa [deepest, noQuote, noBackslash] using ih
  | escape _ _ ih => simpa [deepest] using ih
  | unit digits _ _ ih =>
    rw [List.append_assoc, deepest_unit digits, ih]
  | pair high _ low _ _ ih =>
    rw [List.append_assoc, deepest_unit high, List.append_assoc, deepest_unit low, ih]

theorem Balanced.string {t s : List Char} (h : Chars t s) : Balanced ('"' :: t ++ ['"']) := by
  refine (Balanced.of_deepest fun level rest => ?_).1
  have shape : '"' :: t ++ ['"'] ++ rest = '"' :: (t ++ '"' :: rest) := by simp
  rw [shape, deepest, if_pos rfl, deepest_chars h]

end Parts

theorem Balanced.item {i : Item} (h : Balanced i.text) :
    Balanced i.chars ∧ nesting i.text ≤ nesting i.chars := by
  obtain ⟨front, frontNesting⟩ :=
    (Balanced.of_flat fun c hc => isFlat_blank (i.before.2 c hc)).append h
  obtain ⟨whole, wholeNesting⟩ :=
    front.append (.of_flat fun c hc => isFlat_blank (i.after.2 c hc))
  refine ⟨whole, ?_⟩
  rw [Item.chars]
  omega

theorem Balanced.member {m : Member} (key : Chars m.name m.key) (h : Balanced m.text) :
    Balanced m.chars ∧ nesting m.text ≤ nesting m.chars := by
  have blank : ∀ b : Blanks, Balanced b.1 :=
    fun b => .of_flat fun c hc => isFlat_blank (b.2 c hc)
  obtain ⟨value, valueNesting⟩ := (blank m.gap').append h
  obtain ⟨colon, colonNesting⟩ := (Balanced.of_flat (t := [':']) (by simp [IsFlat])).append value
  obtain ⟨gap, gapNesting⟩ := (blank m.gap).append colon
  obtain ⟨named, namedNesting⟩ := (Balanced.string key).append gap
  obtain ⟨front, frontNesting⟩ := (blank m.before).append named
  obtain ⟨whole, wholeNesting⟩ := front.append (blank m.after)
  have shape : m.chars = m.before ++ ('"' :: m.name ++ ['"'] ++
      (m.gap ++ ([':'] ++ (m.gap' ++ m.text)))) ++ m.after := by
    simp [Member.chars]
  rw [shape]
  exact ⟨whole, by omega⟩

/-- Every text of the grammar is balanced. -/
theorem Balanced.of_denotes {t : List Char} {v : Value} (h : Denotes t v) : Balanced t := by
  have blank : ∀ b : Blanks, Balanced b.1 :=
    fun b => .of_flat fun c hc => isFlat_blank (b.2 c hc)
  induction h with
  | null => exact .of_flat (by simp [IsFlat])
  | yes => exact .of_flat (by simp [IsFlat])
  | no => exact .of_flat (by simp [IsFlat])
  | number h => exact .of_flat (isFlat_number h)
  | string h => exact .string h
  | emptyList b => exact (Balanced.bracket (.inl ⟨rfl, rfl⟩) (blank b)).1
  | @list items _ _ ih =>
    refine (Balanced.bracket (.inl ⟨rfl, rfl⟩) (Balanced.commas ?_).1).1
    intro t ht
    obtain ⟨i, hi, rfl⟩ := List.mem_map.mp ht
    exact (Balanced.item (ih i hi)).1
  | emptyObject b => exact (Balanced.bracket (.inr ⟨rfl, rfl⟩) (blank b)).1
  | @object members _ keys _ ih =>
    refine (Balanced.bracket (.inr ⟨rfl, rfl⟩) (Balanced.commas ?_).1).1
    intro t ht
    obtain ⟨m, hm, rfl⟩ := List.mem_map.mp ht
    exact (Balanced.member (keys m hm) (ih m hm)).1

end RequestWriter.Json
