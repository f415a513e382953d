import RequestWriter.Proofs.Json.Tight
import RequestWriter.Proofs.Text.LineEnds
import RequestWriter.Proofs.Yaml.Flow

/-!
# JSON texts that are YAML

YAML has the values of JSON but does not read all of its texts. The portable texts are those that
both formats read alike. Their productions are those of JSON with what YAML adds: an exponent needs
a fraction and a sign, an escape stands for one character, so no character is escaped by a pair, and
a colon stands on the line of its key, not far from it. Besides, tabs are no blanks, some characters
may not stand in a text at all, and some are line ends.

A file is read with its line ends turned into newlines, which keeps a portable text portable and
keeps its value.
-/

namespace RequestWriter.Json.Grammar

/-- A character that YAML takes as JSON does. -/
structure IsShared (c : Char) : Prop where
  allowed : Yaml.isAllowed c = true
  noTab : c ≠ '\t'
  line : Yaml.isBreak c = true → c = '\n'

instance : DecidablePred IsShared := fun c =>
  decidable_of_iff (Yaml.isAllowed c = true ∧ c ≠ '\t' ∧ (Yaml.isBreak c = true → c = '\n'))
    ⟨fun h => ⟨h.1, h.2.1, h.2.2⟩, fun h => ⟨h.allowed, h.noTab, h.line⟩⟩

/-- The exponent of a number, if there is one, has a sign and stands behind a fraction. -/
def IsExplicit (t : List Char) : Prop :=
  match t.dropWhile fun c => c != 'e' && c != 'E' with
  | [] => True
  | _ :: behind => '.' ∈ t ∧ (behind.head? = some '+' ∨ behind.head? = some '-')

/-- The production `*char` without escapes by pairs. -/
inductive UnpairedChars : List Char → List Char → Prop
  | nil : UnpairedChars [] []
  | plain {c : Char} {t s : List Char} (printable : 0x20 ≤ c.toNat) (noQuote : c ≠ '"')
      (noBackslash : c ≠ '\\') (rest : UnpairedChars t s) : UnpairedChars (c :: t) (c :: s)
  | escape {e c : Char} {t s : List Char} (letter : Escape e c) (rest : UnpairedChars t s) :
      UnpairedChars ('\\' :: e :: t) (c :: s)
  | unit {hex t s : List Char} {u : Nat} (digits : CodeUnit hex u)
      (whole : u < 0xD800 ∨ 0xDFFF < u) (rest : UnpairedChars t s) :
      UnpairedChars ('\\' :: 'u' :: hex ++ t) (Char.ofNat u :: s)

/-- The production `value` as far as both formats read it alike. -/
inductive Portable : List Char → Value → Prop
  | null : Portable ['n', 'u', 'l', 'l'] .null
  | yes : Portable ['t', 'r', 'u', 'e'] (.bool true)
  | no : Portable ['f', 'a', 'l', 's', 'e'] (.bool false)
  | number {t : List Char} {v : Value} (h : Number t v) (explicit : IsExplicit t) : Portable t v
  | string {t s : List Char} (h : UnpairedChars t s) :
      Portable ('"' :: t ++ ['"']) (.text (String.ofList s))
  | emptyList (b : Blanks) : Portable ('[' :: b ++ [']']) (.list [])
  | list {items : List Item} (nonempty : items ≠ [])
      (values : ∀ i ∈ items, Portable i.text i.value) :
      Portable ('[' :: commas (items.map Item.chars) ++ [']']) (.list (items.map Item.value))
  | emptyObject (b : Blanks) : Portable ('\x7b' :: b ++ ['\x7d']) (.mapping [])
  | object {members : List Member} (nonempty : members ≠ [])
      (keys : ∀ m ∈ members, UnpairedChars m.name m.key) (near : ∀ m ∈ members, Yaml.Flow.IsNear m)
      (values : ∀ m ∈ members, Portable m.text m.value) :
      Portable ('\x7b' :: commas (members.map Member.chars) ++ ['\x7d'])
        (assigned (members.map Member.pair))

/-- A text of JSON that YAML reads alike. -/
inductive PortableText : List Char → Value → Prop
  | mk (before after : Blanks) {t : List Char} {v : Value} (h : Portable t v)
      (shared : ∀ c ∈ before ++ t ++ after, IsShared c) : PortableText (before ++ t ++ after) v

theorem UnpairedChars.chars {t s : List Char} (h : UnpairedChars t s) : Chars t s := by
  induction h with
  | nil => exact .nil
  | plain printable noQuote noBackslash _ ih => exact .plain printable noQuote noBackslash ih
  | escape letter _ ih => exact .escape letter ih
  | unit digits whole _ ih => exact .unit digits whole ih

/-- Characters without a quote or a backslash stand for themselves. -/
theorem unpairedChars_self {t : List Char}
    (h : ∀ c ∈ t, 0x20 ≤ c.toNat ∧ c ≠ '"' ∧ c ≠ '\\') : UnpairedChars t t := by
  induction t with
  | nil => exact .nil
  | cons c t ih =>
    rw [List.forall_mem_cons] at h
    exact .plain h.1.1 h.1.2.1 h.1.2.2 (ih h.2)

theorem Portable.denotes {t : List Char} {v : Value} (h : Portable t v) : Denotes t v := by
  induction h with
  | null => exact .null
  | yes => exact .yes
  | no => exact .no
  | number h => exact .number h
  | string h => exact .string h.chars
  | emptyList b => exact .emptyList b
  | list nonempty _ ih => exact .list nonempty ih
  | emptyObject b => exact .emptyObject b
  | object nonempty keys _ _ ih => exact .object nonempty (fun m hm => (keys m hm).chars) ih

theorem PortableText.parts {cs : List Char} {v : Value} (h : PortableText cs v) :
    ∃ (before after : Blanks) (t : List Char), cs = before ++ t ++ after ∧ Portable t v ∧
      ∀ c ∈ cs, IsShared c := by
  cases h with
  | mk before after h shared => exact ⟨before, after, _, rfl, h, shared⟩

theorem PortableText.text {cs : List Char} {v : Value} (h : PortableText cs v) : Text cs v := by
  obtain ⟨before, after, h, -⟩ := h
  exact .mk before after h.denotes

section LineEnds

open RequestWriter.Text

/-- The white space that is left when a file is read. -/
def unifiedBlanks (b : Blanks) : Blanks :=
  ⟨unifyLineEnds b.1, fun c hc =>
    (mem_unifyLineEnds hc).2.elim (fun newline => .inr (.inr (.inl newline))) (b.2 c)⟩

/-- The item that is left when a file is read. -/
def Item.unified (i : Item) : Item where
  before := unifiedBlanks i.before
  text := unifyLineEnds i.text
  after := unifiedBlanks i.after
  value := i.value

/-- The member that is left when a file is read. -/
def Member.unified (m : Member) : Member where
  before := unifiedBlanks m.before
  name := m.name
  key := m.key
  gap := m.gap
  gap' := unifiedBlanks m.gap'
  text := unifyLineEnds m.text
  after := unifiedBlanks m.after
  value := m.value

theorem notMem_unpairedChars {t s : List Char} (h : UnpairedChars t s) : '\r' ∉ t :=
  fun mem => absurd (chars_printable h.chars _ mem) (by decide)

theorem notMem_number {t : List Char} {v : Value} (h : Number t v) : '\r' ∉ t := by
  intro mem
  rcases mem_number h _ mem with digit | mark
  · cases digit
  · simp at mark

/-- A value neither begins nor ends with one half of a line end. -/
theorem Portable.seams {t : List Char} {v : Value} (h : Portable t v) :
    (∀ rest, (t ++ rest).head? ≠ some '\n') ∧ t.getLast? ≠ some '\r' := by
  constructor
  · intro rest
    obtain ⟨c, t, rfl, notBlank, -⟩ := begins_denotes h.denotes
    rintro ⟨⟩
    cases notBlank
  · cases h with
    | null | yes | no => decide
    | number h =>
      intro last
      exact notMem_number h (List.mem_of_getLast? last)
    | _ =>
      rw [List.getLast?_concat]
      decide

theorem unifyLineEnds_commas (ts : List (List Char)) :
    unifyLineEnds (commas ts) = commas (ts.map unifyLineEnds) := by
  induction ts with
  | nil => rfl
  | cons t ts ih =>
    cases ts with
    | nil => simp
    | cons u ts =>
      rw [commas_cons_cons, unifyLineEnds_append (.inr (by simp)), unifyLineEnds_cons (by decide),
        ih]
      simp only [List.map_cons, commas_cons_cons]

/-- Brackets stay around what stands between them. -/
theorem unifyLineEnds_bracket {opening closing : Char} (first : opening ≠ '\r')
    (last : closing ≠ '\n' ∧ closing ≠ '\r') (t : List Char) :
    unifyLineEnds (opening :: t ++ [closing]) = opening :: unifyLineEnds t ++ [closing] := by
  rw [List.cons_append, unifyLineEnds_cons first,
    unifyLineEnds_append (.inr (by simpa using last.1)), unifyLineEnds_cons last.2,
    List.cons_append]
  rfl

theorem Item.chars_unified {i : Item} (h : Portable i.text i.value) :
    i.unified.chars = unifyLineEnds i.chars := by
  obtain ⟨front, behind⟩ := h.seams
  rw [Item.chars, Item.chars, List.append_assoc i.before.1, unifyLineEnds_append (.inr (front _)),
    unifyLineEnds_append (.inl behind), List.append_assoc]
  rfl

theorem Member.chars_unified {m : Member} (key : UnpairedChars m.name m.key)
    (near : Yaml.Flow.IsNear m)
    (h : Portable m.text m.value) : m.unified.chars = unifyLineEnds m.chars := by
  obtain ⟨front, behind⟩ := h.seams
  have gap : '\r' ∉ m.gap.1 := fun mem => absurd (near.spaces _ mem) (by decide)
  have value : unifyLineEnds (m.gap' ++ (m.text ++ m.after)) =
      m.unified.gap' ++ (m.unified.text ++ m.unified.after) := by
    rw [unifyLineEnds_append (.inr (front _)), unifyLineEnds_append (.inl behind)]
    rfl
  have colon : unifyLineEnds (m.gap ++ ':' :: (m.gap' ++ (m.text ++ m.after))) =
      m.gap ++ ':' :: (m.unified.gap' ++ (m.unified.text ++ m.unified.after)) := by
    rw [unifyLineEnds_append (.inr (by simp)), unifyLineEnds_of_notMem gap,
      unifyLineEnds_cons (by decide), value]
  have name :
      unifyLineEnds (m.name ++ '"' :: (m.gap ++ ':' :: (m.gap' ++ (m.text ++ m.after)))) =
        m.name ++ '"' ::
          (m.gap ++ ':' :: (m.unified.gap' ++ (m.unified.text ++ m.unified.after))) := by
    rw [unifyLineEnds_append (.inr (by simp)), unifyLineEnds_of_notMem (notMem_unpairedChars key),
      unifyLineEnds_cons (by decide), colon]
  have shape : ∀ m : Member, m.chars = m.before ++
      '"' :: (m.name ++ '"' :: (m.gap ++ ':' :: (m.gap' ++ (m.text ++ m.after)))) := by
    simp [Member.chars]
  rw [shape, shape, unifyLineEnds_append (.inr (by simp)), unifyLineEnds_cons (by decide), name]
  rfl

/-- Reading a file keeps a portable value as it is. -/
theorem Portable.unified {t : List Char} {v : Value} (h : Portable t v) :
    Portable (unifyLineEnds t) v := by
  induction h with
  | null => exact .null
  | yes => exact .yes
  | no => exact .no
  | number h explicit =>
    rw [unifyLineEnds_of_notMem (notMem_number h)]
    exact .number h explicit
  | string h =>
    rw [unifyLineEnds_bracket (by decide) (by decide),
      unifyLineEnds_of_notMem (notMem_unpairedChars h)]
    exact .string h
  | emptyList b =>
    rw [unifyLineEnds_bracket (by decide) (by decide)]
    exact .emptyList (unifiedBlanks b)
  | @list items nonempty values ih =>
    have texts : (items.map Item.chars).map unifyLineEnds =
        (items.map Item.unified).map Item.chars := by
      simp only [List.map_map]
      exact List.map_congr_left fun i hi => (Item.chars_unified (values i hi)).symm
    have result : (items.map Item.unified).map Item.value = items.map Item.value := by
      simp [Item.unified]
    rw [unifyLineEnds_bracket (by decide) (by decide), unifyLineEnds_commas, texts, ← result]
    refine .list (by simpa using nonempty) fun i hi => ?_
    obtain ⟨j, hj, rfl⟩ := List.mem_map.mp hi
    exact ih j hj
  | emptyObject b =>
    rw [unifyLineEnds_bracket (by decide) (by decide)]
    exact .emptyObject (unifiedBlanks b)
  | @object members nonempty keys near values ih =>
    have texts : (members.map Member.chars).map unifyLineEnds =
        (members.map Member.unified).map Member.chars := by
      simp only [List.map_map]
      exact List.map_congr_left fun m hm =>
        (Member.chars_unified (keys m hm) (near m hm) (values m hm)).symm
    have result : (members.map Member.unified).map Member.pair = members.map Member.pair := by
      simp [Member.unified, Member.pair]
    have each : ∀ {P : Member → Prop}, (∀ m ∈ members, P m.unified) →
        ∀ m ∈ members.map Member.unified, P m := by
      intro P h m hm
      obtain ⟨n, hn, rfl⟩ := List.mem_map.mp hm
      exact h n hn
    rw [unifyLineEnds_bracket (by decide) (by decide), unifyLineEnds_commas, texts, ← result]
    exact .object (by simpa using nonempty) (each keys)
      (each fun m hm => ⟨(near m hm).spaces, (near m hm).near⟩) (each ih)

/-- Reading a file keeps a portable text portable, with its value. -/
theorem PortableText.unified {cs : List Char} {v : Value} (h : PortableText cs v) :
    PortableText (unifyLineEnds cs) v := by
  cases h with
  | @mk before after t _ h shared =>
    let i : Item := ⟨before, t, after, v⟩
    have newline : IsShared '\n' := by decide
    have whole : i.unified.chars = unifyLineEnds i.chars := Item.chars_unified h
    have shared' : ∀ c ∈ unifyLineEnds i.chars, IsShared c :=
      fun c hc => (mem_unifyLineEnds hc).2.elim (fun eq => eq ▸ newline) (shared c)
    rw [← whole] at shared'
    exact whole ▸ .mk (unifiedBlanks before) (unifiedBlanks after) h.unified shared'

/-- Line ends are no brackets, so it does not count how they are spelled. -/
theorem deepest_unifyLineEnds (cs : List Char) (place : Place) (level : Nat) :
    deepest place level (unifyLineEnds cs) = deepest place level cs := by
  fun_induction unifyLineEnds cs generalizing place level with
  | case1 => rfl
  | case2 rest ih => cases place <;> simp [deepest, ih]
  | case3 rest _ ih => cases place <;> simp [deepest, ih]
  | case4 c rest _ _ ih => cases place <;> simp only [deepest, ih]

theorem nesting_unifyLineEnds (cs : List Char) : nesting (unifyLineEnds cs) = nesting cs :=
  deepest_unifyLineEnds cs .outside 0

end LineEnds

end RequestWriter.Json.Grammar
