import RequestWriter.Proofs.Json.Portable
import RequestWriter.Proofs.Json.Denoted

/-!
# Portable texts are flow style

The portable texts of JSON belong to flow style, with the same values: an explicit number is a word,
a string keeps its characters and its escapes, and a list or an object is a flow collection. So
every library that reads flow style reads them as JSON does.
-/

namespace RequestWriter.Json.Grammar

variable {t s : List Char} {v : Value}

theorem IsShared.isChar {c : Char} (h : IsShared c) (noReturn : c ≠ '\r') : Yaml.Flow.IsChar c :=
  ⟨h.allowed, h.noTab, noReturn, h.line⟩

section Numbers

variable {sign whole frac fraction exp : List Char} {negative : Bool} {exponent : Option Int}

/-- An exponent behind a text without a mark of exponents. -/
theorem isExplicit_iff {front behind : List Char} {e : Char} (mark : e = 'e' ∨ e = 'E')
    (noMark : ∀ c ∈ front, c ≠ 'e' ∧ c ≠ 'E') :
    IsExplicit (front ++ e :: behind) ↔
      '.' ∈ front ++ e :: behind ∧ (behind.head? = some '+' ∨ behind.head? = some '-') := by
  have stop : (e != 'e' && e != 'E') = false := by rcases mark with rfl | rfl <;> rfl
  have split : (front ++ e :: behind).dropWhile (fun c => c != 'e' && c != 'E') = e :: behind := by
    rw [List.dropWhile_append_of_pos fun c hc => by simpa using noMark c hc, List.dropWhile_cons,
      stop]
    rfl
  rw [IsExplicit, split]

theorem point_of_fraction (fracPart : Fraction frac fraction) (given : frac ≠ []) :
    frac = '.' :: fraction ∧ ∀ c ∈ fraction, c.isDigit = true := by
  cases fracPart with
  | absent => exact absurd rfl given
  | present nonempty digits => exact ⟨rfl, digits⟩

/-- The characters of a number in front of its exponent. -/
theorem mem_front (sgn : Minus sign negative) (int : Whole whole)
    (fracPart : Fraction frac fraction) :
    ∀ c ∈ sign ++ whole ++ frac, c.isDigit = true ∨ c = '-' ∨ c ∈ frac ∧ c = '.' := by
  intro c hc
  rw [List.mem_append, List.mem_append] at hc
  rcases hc with (hc | hc) | hc
  · cases sgn with
    | absent => cases hc
    | present => exact .inr (.inl (List.mem_singleton.mp hc))
  · exact .inl (Json.isDigit_of_whole int c hc)
  · cases fracPart with
    | absent => cases hc
    | present nonempty digits =>
      rcases List.mem_cons.mp hc with rfl | hc
      · exact .inr (.inr ⟨List.mem_cons_self, rfl⟩)
      · exact .inl (digits c hc)

/-- An explicit number that is no whole number has a point, and its exponent has a sign. -/
theorem explicit_parts (sgn : Minus sign negative) (int : Whole whole)
    (fracPart : Fraction frac fraction) (expPart : Exponent exp exponent)
    (form : fraction ≠ [] ∨ exponent ≠ none)
    (explicit : IsExplicit (sign ++ whole ++ frac ++ exp)) :
    frac = '.' :: fraction ∧ (∀ c ∈ fraction, c.isDigit = true) ∧
      Yaml.Flow.SignedExponent exp (exponent.getD 0) := by
  have front := mem_front sgn int fracPart
  cases expPart with
  | absent =>
    have given : frac ≠ [] := by
      rintro rfl
      cases fracPart
      simp at form
    have parts := point_of_fraction fracPart given
    exact ⟨parts.1, parts.2, .absent⟩
  | @present e expSign ds negative' mark expSgn nonempty digits =>
    have noMark : ∀ c ∈ sign ++ whole ++ frac, c ≠ 'e' ∧ c ≠ 'E' := by
      intro c hc
      constructor <;> rintro rfl <;> simpa using front _ hc
    obtain ⟨mem, signed⟩ := (isExplicit_iff mark noMark).mp explicit
    have given : frac ≠ [] := by
      rintro rfl
      have noPoint : '.' ∉ e :: (expSign ++ ds) := by
        have inSign : '.' ∉ expSign := by cases expSgn <;> simp
        have inDigits : '.' ∉ ds := fun mem => absurd (digits _ mem) (by decide)
        rcases mark with rfl | rfl <;> simp [inSign, inDigits]
      rcases List.mem_append.mp mem with mem | mem
      · simpa using front _ mem
      · exact noPoint mem
    have parts := point_of_fraction fracPart given
    refine ⟨parts.1, parts.2, ?_⟩
    cases expSgn with
    | absent =>
      obtain ⟨d, ds, rfl⟩ := List.exists_cons_of_ne_nil nonempty
      have digit := digits d List.mem_cons_self
      rcases signed with eq | eq <;> cases eq <;> cases digit
    | plus => exact .plus mark nonempty digits
    | minus => exact .minus mark nonempty digits

/-- An explicit number is a word for its value. -/
theorem word_of_number (h : Number t v) (explicit : IsExplicit t) :
    ∃ s, v = .scalar s ∧ Yaml.Flow.Word t s := by
  cases h with
  | integer sgn int short => exact ⟨_, rfl, .integer sgn int short⟩
  | @float sign whole frac fraction exp negative exponent sgn int fracPart expPart form finite =>
    obtain ⟨rfl, digits, signed⟩ := explicit_parts sgn int fracPart expPart form explicit
    have shape : sign ++ whole ++ '.' :: fraction ++ exp =
        sign ++ (whole ++ '.' :: (fraction ++ exp)) := by simp
    rw [shape]
    exact ⟨_, rfl, .real sgn int digits signed⟩

end Numbers

/-- The characters and escapes of a string are among those of flow style. -/
theorem flowChars_of_unpaired (h : UnpairedChars t s) (chars : ∀ c ∈ t, Yaml.Flow.IsChar c) :
    Yaml.Flow.Chars t s := by
  induction h with
  | nil => exact .nil
  | @plain c t s printable noQuote noBackslash _ ih =>
    rw [List.forall_mem_cons] at chars
    have onLine : Yaml.isBreak c = false := by
      refine Bool.eq_false_iff.mpr fun isBreak => ?_
      rw [chars.1.line isBreak] at printable
      exact absurd printable (by decide)
    exact .plain onLine chars.1.noTab noQuote noBackslash (ih chars.2)
  | @escape e c t s letter _ ih =>
    have known : (e, c) ∈ Yaml.Flow.escapes := by cases letter <;> decide
    exact .escape known (ih fun x hx => chars x (by simp [hx]))
  | unit digits whole _ ih => exact .code digits whole (ih fun x hx => chars x (by simp [hx]))

/-- The productions of portable values are those of flow style. -/
theorem Portable.flow (h : Portable t v) (chars : ∀ c ∈ t, Yaml.Flow.IsChar c) :
    Yaml.Flow.Denotes t v := by
  induction h with
  | null => exact .word (.null (by decide))
  | yes => exact .word (.truth (by decide))
  | no => exact .word (.truth (by decide))
  | number h explicit =>
    obtain ⟨s, rfl, word⟩ := word_of_number h explicit
    exact .word word
  | string h => exact .string (flowChars_of_unpaired h fun c hc => chars c (by simp [hc]))
  | emptyList b => exact .emptyList b
  | emptyObject b => exact .emptyObject b
  | @list items nonempty _ ih =>
    refine .list nonempty fun i hi => ih i hi fun c hc => chars c ?_
    have mem := mem_commas (List.mem_map_of_mem (f := Item.chars) hi) c (by simp [Item.chars, hc])
    simp [mem]
  | @object members nonempty keys near _ ih =>
    have inner : ∀ m ∈ members, ∀ c ∈ m.chars, Yaml.Flow.IsChar c := by
      intro m hm c hc
      have mem := mem_commas (List.mem_map_of_mem (f := Member.chars) hm) c hc
      exact chars c (by simp [mem])
    refine .object nonempty (fun m hm => ?_) near fun m hm => ?_
    · exact flowChars_of_unpaired (keys m hm) fun c hc => inner m hm c (by simp [Member.chars, hc])
    · exact ih m hm fun c hc => inner m hm c (by simp [Member.chars, hc])

/-- What is read from a file with a portable text that is more than a scalar is a text of flow
style with the same value. -/
theorem PortableText.flow {cs : List Char} (h : PortableText cs v)
    (collection : ∀ s, v ≠ .scalar s) :
    Yaml.Flow.Text (RequestWriter.Text.unifyLineEnds cs) v := by
  have noReturn : '\r' ∉ RequestWriter.Text.unifyLineEnds cs :=
    fun mem => (RequestWriter.Text.mem_unifyLineEnds mem).1 rfl
  obtain ⟨before, after, t, split, portable, shared⟩ := h.unified.parts
  rw [split] at noReturn shared ⊢
  have chars : ∀ c ∈ before ++ t ++ after.1, Yaml.Flow.IsChar c :=
    fun c hc => (shared c hc).isChar fun eq => noReturn (eq ▸ hc)
  exact .mk before after (portable.flow fun c hc => chars c (by simp [hc])) collection chars

end RequestWriter.Json.Grammar
