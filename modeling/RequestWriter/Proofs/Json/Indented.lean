import RequestWriter.Proofs.Json.Literal
import RequestWriter.Proofs.Literal.Layout
import RequestWriter.CommandLine.Run

/-!
# Two layouts of JSON

Examples are shown by the indented printer, and values stand in code as literals of the dialect of
JSON. The two were written apart: one goes by the rules of strings of JSON and escapes all but the
printable characters of ASCII, the other goes by the row of a dialect and escapes three characters.
On texts of printable characters and newlines they agree, and so do their layouts, down to the bound
on the depth of literals.
-/

namespace RequestWriter.Json

/-- The text holds nothing but printable characters of ASCII and newlines. -/
def IsPrintable (s : String) : Prop :=
  ∀ c ∈ s.toList, c = '\n' ∨ 0x20 ≤ c.toNat ∧ c.toNat ≤ 0x7E

section Scalars

theorem escapeChar_eq_stringChar {c : Char} (h : c = '\n' ∨ 0x20 ≤ c.toNat ∧ c.toNat ≤ 0x7E) :
    Target.json.dialect.escapeChar c = stringChar true c := by
  rcases h with rfl | ⟨low, high⟩
  · decide
  · -- The other characters with an escape of their own lie below the blank.
    have noNewline : c ≠ '\n' := by
      rintro rfl
      exact absurd low (by decide)
    have noReturn : c ≠ '\r' := by
      rintro rfl
      exact absurd low (by decide)
    have noTab : c ≠ '\t' := by
      rintro rfl
      exact absurd low (by decide)
    have noBackspace : c ≠ '\x08' := by
      rintro rfl
      exact absurd low (by decide)
    have noFeed : c ≠ '\x0c' := by
      rintro rfl
      exact absurd low (by decide)
    have noControl : ¬c.toNat < 0x20 := Nat.not_lt.mpr low
    have noWide : ¬0x7F ≤ c.toNat := by omega
    by_cases isBackslash : c = '\\'
    · subst isBackslash
      decide
    · by_cases isQuote : c = '"'
      · subst isQuote
        decide
      · simp [Dialect.escapeChar, Target.dialect, stringChar, isBackslash, isQuote, noNewline,
          noReturn, noTab, noBackspace, noFeed, noControl, noWide]

theorem quote_eq_string {s : String} (printable : IsPrintable s) :
    Target.json.dialect.quote s = string true s := by
  have chars : s.toList.flatMap Target.json.dialect.escapeChar =
      s.toList.flatMap (stringChar true) :=
    List.flatMap_congr fun c mem => escapeChar_eq_stringChar (printable c mem)
  rw [Dialect.quote, chars]
  rfl

theorem scalar_eq {s : Scalar} (plain : s.IsPlain) (texts : s.AllTexts IsPrintable) :
    Literal.scalar Target.json.dialect s = scalar true s := by
  cases s with
  | text s => exact quote_eq_string texts
  | null | bool | int => rfl
  | _ => exact absurd plain id

end Scalars

section Blocks

theorem line_eq_newline (level : Nat) : Literal.line level = newline level := by
  apply String.toList_inj.mp
  simp [Literal.line, Literal.pad, newline]

/-- The two kinds of blocks are the same: the entries stand behind the blanks of their level, or the
blanks belong to what separates them. -/
theorem block_eq (opening closing : String) (level : Nat) (texts : List String) :
    Literal.block opening closing level (texts.map (Literal.pad (level + 1) ++ ·)) =
      block opening closing level texts := by
  by_cases empty : texts = []
  · subst empty
    rfl
  · have inner : Literal.line ((level : Int) + 1) = newline (level + 1) :=
      line_eq_newline (level + 1)
    rw [Literal.block_eq _ _ _ empty, block, if_neg (by simpa using empty), inner,
      line_eq_newline]

theorem indentedItems_eq (level : Nat) (items : List Value) :
    indentedItems level items = items.map (indentedAt level) := by
  induction items with
  | nil => rfl
  | cons v items ih => rw [indentedItems, ih, List.map_cons]

theorem indentedMembers_eq (level : Nat) (entries : List (Scalar × Value)) :
    indentedMembers level entries =
      entries.map fun entry => key true entry.1 ++ ": " ++ indentedAt level entry.2 := by
  induction entries with
  | nil => rfl
  | cons entry entries ih => rw [indentedMembers, ih, List.map_cons]

end Blocks

section Values

variable {g : Graph}

/-- A literal that is not cut off is the indented text of its value. -/
theorem render_eq_indentedAt {v : Value} (plain : v.Built Scalar.IsPlain)
    (texts : v.AllTexts IsPrintable) {left : Nat} (nested : v.NestedWithin (left - 1))
    (level : Nat) :
    Literal.render Target.json.dialect g left level v = indentedAt level v := by
  induction plain generalizing left level with
  | scalar h =>
    cases left with
    | zero => exact absurd nested.nonneg (by decide)
    | succ left => exact scalar_eq h (Value.allTexts_scalar_iff.mp texts)
  | @list items _ ih =>
    cases left with
    | zero => exact absurd nested.nonneg (by decide)
    | succ left =>
      rw [Value.allTexts_list_iff] at texts
      have same : ∀ v ∈ items,
          Literal.render Target.json.dialect g left (level + 1) v = indentedAt (level + 1) v := by
        intro v mem
        have within := nested.item mem
        rw [Int.natCast_succ, Int.add_sub_cancel] at within
        exact ih v mem (texts v mem) within (level + 1)
      rw [Literal.render_of_list (Value.expose_list g items), List.map_congr_left same, block_eq,
        indentedAt, indentedItems_eq]
  | @mapping entries keys _ ih =>
    cases left with
    | zero => exact absurd nested.nonneg (by decide)
    | succ left =>
      rw [Value.allTexts_mapping_iff] at texts
      have same : ∀ entry ∈ entries,
          Literal.entryText Target.json.dialect entry.1
              (Literal.render Target.json.dialect g left (level + 1) entry.2) =
            key true entry.1 ++ ": " ++ indentedAt (level + 1) entry.2 := by
        intro entry mem
        have within := nested.entry mem
        rw [Int.natCast_succ, Int.add_sub_cancel] at within
        have value := ih entry mem (texts entry mem).2 within (level + 1)
        obtain ⟨name, isText⟩ := keys entry mem
        have printable := (texts entry mem).1
        rw [isText] at printable ⊢
        rw [Literal.entryText, Scalar.display, quote_eq_string printable, key]
        exact congrArg _ value
      rw [Literal.render_of_mapping (Value.expose_mapping g entries), List.map_congr_left same,
        block_eq, indentedAt, indentedMembers_eq]

theorem itemsFault?_eq_none {ofRef : Nat → Option Fault} {items : List Value}
    (h : ∀ v ∈ items, faultWith ofRef v = none) : itemsFault? ofRef items = none := by
  induction items with
  | nil => rfl
  | cons v items ih =>
    rw [List.forall_mem_cons] at h
    rw [itemsFault?, h.1, ih h.2, Option.or_none]

theorem membersFault?_eq_none {ofRef : Nat → Option Fault} {entries : List (Scalar × Value)}
    (keys : ∀ entry ∈ entries, ∃ s, entry.1 = .text s)
    (h : ∀ entry ∈ entries, faultWith ofRef entry.2 = none) :
    membersFault? ofRef entries = none := by
  induction entries with
  | nil => rfl
  | cons entry entries ih =>
    rw [List.forall_mem_cons] at keys h
    obtain ⟨name, isText⟩ := keys.1
    rw [membersFault?, isText, h.1, ih keys.2 h.2]
    rfl

/-- The indented printer refuses no such value. -/
theorem fault?_of_built {v : Value} (plain : v.Built Scalar.IsPlain) : fault? g v = none := by
  rw [fault?]
  induction plain with
  | scalar h => exact scalarFault?_of_isShort h.isJson.isShort
  | list _ ih => exact itemsFault?_eq_none ih
  | mapping keys _ ih => exact membersFault?_eq_none keys ih

end Values

end RequestWriter.Json

namespace RequestWriter.CommandLine

variable {g : Graph}

/-- What is shown in front of a value stays in front. -/
theorem Console.shown_bind {α β : Type} {x : Console α} {a : α} (h : x.result = .ok a)
    (f : α → Console β) : (x >>= f).shown = x.shown ++ (f a).shown := by
  obtain ⟨shown, records, result⟩ := x
  cases h
  rfl

/-- Behind its label an example is shown as it is written. -/
theorem shown_runExample {target : Target} {label text : String} {schema v : Value}
    (synthesized : (Schema.synthesize ⟨g, schema⟩).result = .ok v)
    (written : (exampleText target ⟨g, v⟩).result = .ok text) :
    (runExample g target label schema).shown = ["# " ++ label, text] := by
  have value : (Console.ofLogged (Schema.synthesize ⟨g, schema⟩)).result = .ok v := by
    rw [Console.result_ofLogged, synthesized]
    rfl
  have line : (Console.ofLogged (exampleText target ⟨g, v⟩)).result = .ok text := by
    rw [Console.result_ofLogged, written]
    rfl
  refine (Console.shown_bind value _).trans ?_
  exact (Console.shown_bind line _).trans rfl

/-- A value of null, truth values, whole numbers that can be written, texts, lists and mappings of
texts, whose texts are printable and whose parts lie within the bound on the depth, is the same
literal of JSON as it is shown as an example. -/
theorem exampleText_eq_literal (g : Graph) {v : Value} (plain : v.Built Scalar.IsPlain)
    (texts : v.AllTexts Json.IsPrintable) (nested : v.NestedWithin Literal.defaultMaxDepth) :
    ∃ text, (Literal.serialize .json ⟨g, v⟩ 0 Literal.defaultMaxDepth).result = .ok text ∧
      (exampleText .json ⟨g, v⟩).result = .ok text ∧
      ∀ label schema, (Schema.synthesize ⟨g, schema⟩).result = .ok v →
        (runExample g .json label schema).shown = ["# " ++ label, text] := by
  have literal := Literal.result_serialize (g := g) .json
    (plain.mono fun _ => Scalar.IsPlain.isJson) 0 Literal.defaultMaxDepth
  have within : v.NestedWithin (((33 : Nat) : Int) - 1) := nested
  have same : Literal.render Target.json.dialect g 33 0 v = Json.indented v :=
    Json.render_eq_indentedAt plain texts within 0
  have shown : (exampleText .json ⟨g, v⟩).result = .ok (Json.indented v) := by
    rw [exampleText, if_pos rfl, Json.fault?_of_built plain]
    rfl
  exact ⟨_, literal.trans (congrArg Except.ok same), shown, fun label schema synthesized =>
    shown_runExample synthesized shown⟩

/-- Empty containers among others, with quotes, backslashes and newlines in a key and a text. -/
def ragged : Value :=
  .object [("a\n\"b\\", .list [.list [], .text "\\\"\n ~", .object []]), ("", .int (-10))]

/-- The conditions of `exampleText_eq_literal` hold for `ragged`, and a schema that gives it as its
example shows it. -/
theorem ragged_eq_literal :
    ragged.Built Scalar.IsPlain ∧ ragged.AllTexts Json.IsPrintable ∧
      ragged.NestedWithin Literal.defaultMaxDepth ∧
      ∃ text, (Literal.serialize .json ⟨[], ragged⟩ 0 Literal.defaultMaxDepth).result =
          .ok text ∧ (exampleText .json ⟨[], ragged⟩).result = .ok text ∧
        (runExample [] .json "request" (.object [("example", ragged)])).shown =
          ["# request", text] := by
  have plain : ragged.Built Scalar.IsPlain := by
    have short : (Nat.toDigits 10 10).length ≤ Json.maxIntegerDigits := by decide
    simpa [ragged, Value.object, Value.text, Value.int, Scalar.IsPlain] using short
  have texts : ragged.AllTexts Json.IsPrintable := by
    simp [ragged, Value.object, Value.text, Value.int, Scalar.AllTexts, Json.IsPrintable]
  have within : ragged.NestedWithin Literal.defaultMaxDepth := by
    simp [ragged, Value.object, Value.text, Value.int, Literal.defaultMaxDepth]
  obtain ⟨text, written, shown, examples⟩ := exampleText_eq_literal [] plain texts within
  have given : (Schema.synthesize ⟨[], .object [("example", ragged)]⟩).result = .ok ragged := by
    rfl
  exact ⟨plain, texts, within, text, written, shown, examples "request" _ given⟩

/-- A character beyond ASCII is shown by its code unit, and stands for itself in a literal. -/
example :
    (Literal.serialize .json ⟨[], .text "é"⟩ 0 Literal.defaultMaxDepth).result = .ok "\"é\"" ∧
      (exampleText .json ⟨[], .text "é"⟩).result = .ok "\"\\u00e9\"" := by
  decide +kernel

end RequestWriter.CommandLine
