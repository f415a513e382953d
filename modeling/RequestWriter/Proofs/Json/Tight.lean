import RequestWriter.Proofs.Json.Compact
import RequestWriter.Proofs.Json.Nesting

/-!
# Compact texts are tight

The compact text of a JSON value is on a single line: it holds no control character, and no white
space stands outside of its strings. A body that is written anew is a JSON text for the same value,
so writing it anew once more changes nothing; a body that is no JSON text never becomes one.
-/

namespace RequestWriter.Json

open Grammar

/-- The characters of a text that stand outside of its strings, the quotes of a string included. -/
def outside : Place → List Char → List Char
  | _, [] => []
  | .outside, c :: cs => c :: outside (if c = '"' then .inside else .outside) cs
  | .inside, c :: cs =>
    if c = '\\' then outside .escaped cs
    else if c = '"' then c :: outside .outside cs
    else outside .inside cs
  | .escaped, _ :: cs => outside .inside cs

/-- A text without control characters whose strings are closed and that has no white space outside
of them. -/
structure Tight (t : List Char) : Prop where
  printable : ∀ c ∈ t, 0x20 ≤ c.toNat
  closed : ∃ own, (∀ c ∈ own, ¬IsBlank c) ∧
    ∀ rest, outside .outside (t ++ rest) = own ++ outside .outside rest

namespace Tight

variable {s t : List Char}

theorem nil : Tight [] := ⟨by simp, [], by simp, fun _ => rfl⟩

theorem append (hs : Tight s) (ht : Tight t) : Tight (s ++ t) := by
  obtain ⟨left, noBlank, split⟩ := hs.closed
  obtain ⟨right, noBlank', split'⟩ := ht.closed
  refine ⟨fun c mem => ?_, left ++ right, fun c mem => ?_, fun rest => ?_⟩
  · exact (List.mem_append.mp mem).elim (hs.printable c) (ht.printable c)
  · exact (List.mem_append.mp mem).elim (noBlank c) (noBlank' c)
  · rw [List.append_assoc, split, split', List.append_assoc]

/-- A printable character that opens no string is tight. -/
theorem cons {c : Char} (plain : 0x20 < c.toNat ∧ c ≠ '"') (ht : Tight t) : Tight (c :: t) := by
  obtain ⟨own, noBlank, split⟩ := ht.closed
  obtain ⟨printable, noQuote⟩ := plain
  refine ⟨?_, c :: own, ?_, fun rest => ?_⟩
  · rw [List.forall_mem_cons]
    exact ⟨Nat.le_of_lt printable, ht.printable⟩
  · rw [List.forall_mem_cons]
    refine ⟨?_, noBlank⟩
    rintro (rfl | rfl | rfl | rfl) <;> exact absurd printable (by decide)
  · rw [List.cons_append, outside, if_neg noQuote, split, List.cons_append]

theorem of_plain (plain : ∀ c ∈ t, 0x20 < c.toNat ∧ c ≠ '"') : Tight t := by
  induction t with
  | nil => exact nil
  | cons c t ih =>
    rw [List.forall_mem_cons] at plain
    exact (ih plain.2).cons plain.1

theorem commas {ts : List (List Char)} (h : ∀ t ∈ ts, Tight t) : Tight (commas ts) := by
  induction ts with
  | nil => exact nil
  | cons t ts ih =>
    rw [List.forall_mem_cons] at h
    cases ts with
    | nil => simpa [Grammar.commas] using h.1
    | cons u ts =>
      rw [commas_cons_cons]
      exact h.1.append ((ih h.2).cons (by decide))

end Tight

section Strings

variable {t s : List Char}

theorem unit_printable {hex : List Char} {u : Nat} (h : CodeUnit hex u) :
    ∀ c ∈ '\\' :: 'u' :: hex, 0x20 ≤ c.toNat := by
  rw [List.forall_mem_cons, List.forall_mem_cons]
  refine ⟨by decide, by decide, fun c mem => ?_⟩
  obtain ⟨n, digit⟩ := hexDigit_of_mem h c mem
  exact hexDigit_printable digit

/-- A string of the grammar is written without control characters. -/
theorem chars_printable (h : Chars t s) : ∀ c ∈ t, 0x20 ≤ c.toNat := by
  induction h with
  | nil => simp
  | plain printable _ _ _ ih =>
    rw [List.forall_mem_cons]
    exact ⟨printable, ih⟩
  | escape letter _ ih =>
    rw [List.forall_mem_cons, List.forall_mem_cons]
    refine ⟨by decide, ?_, ih⟩
    cases letter <;> decide
  | unit digits _ _ ih =>
    rw [List.forall_mem_append]
    exact ⟨unit_printable digits, ih⟩
  | pair high _ low _ _ ih =>
    rw [List.forall_mem_append, List.forall_mem_append]
    exact ⟨unit_printable high, unit_printable low, ih⟩

theorem outside_plain {cs : List Char} (h : ∀ c ∈ cs, c ≠ '\\' ∧ c ≠ '"') (rest : List Char) :
    outside .inside (cs ++ rest) = outside .inside rest := by
  induction cs with
  | nil => rfl
  | cons c cs ih =>
    rw [List.forall_mem_cons] at h
    rw [List.cons_append, outside, if_neg h.1.1, if_neg h.1.2, ih h.2]

theorem outside_unit {hex : List Char} {u : Nat} (h : CodeUnit hex u) (rest : List Char) :
    outside .inside ('\\' :: 'u' :: hex ++ rest) = outside .inside rest := by
  simpa [outside] using outside_plain (codeUnit_plain h) rest

/-- Nothing in a string stands outside of it, but for its closing quote. -/
theorem outside_chars (h : Chars t s) (rest : List Char) :
    outside .inside (t ++ '"' :: rest) = '"' :: outside .outside rest := by
  induction h with
  | nil => simp [outside]
  | plain _ noQuote noBackslash _ ih => simpa [outside, noQuote, noBackslash] using ih
  | escape _ _ ih => simpa [outside] using ih
  | unit digits _ _ ih =>
    rw [List.append_assoc, outside_unit digits, ih]
  | pair high _ low _ _ ih =>
    rw [List.append_assoc, outside_unit high, List.append_assoc, outside_unit low, ih]

theorem Tight.string (h : Chars t s) : Tight ('"' :: (t ++ ['"'])) := by
  refine ⟨?_, ['"', '"'], ?_, fun rest => ?_⟩
  · rw [List.forall_mem_cons, List.forall_mem_append]
    exact ⟨by decide, chars_printable h, by simp⟩
  · simp [IsBlank]
  · have shape : '"' :: (t ++ ['"']) ++ rest = '"' :: (t ++ '"' :: rest) := by simp
    rw [shape, outside, if_pos rfl, outside_chars h]
    rfl

end Strings

section Values

theorem Tight.number {t : List Char} {v : Value} (h : Number t v) : Tight t := by
  refine .of_plain fun c mem => ?_
  rcases mem_number h c mem with digit | mark
  · obtain ⟨noQuote, -⟩ := isFlat_digit digit
    have low : ('0' : Char).toNat ≤ c.toNat := by
      simp only [Char.isDigit, Bool.and_eq_true, decide_eq_true_eq] at digit
      exact digit.1
    change 0x30 ≤ c.toNat at low
    exact ⟨by omega, noQuote⟩
  · simp only [List.mem_cons, List.not_mem_nil, or_false] at mark
    rcases mark with rfl | rfl | rfl | rfl | rfl <;> decide

theorem Tight.scalar {s : Scalar} (h : s.IsJson) : Tight (scalar false s).toList := by
  cases s with
  | null => exact .of_plain (by simp [Json.scalar])
  | bool b => cases b <;> exact .of_plain (by simp [Json.scalar])
  | int i => exact .number (number_toString h)
  | float d => exact .number (Decimal.number_write h)
  | text s =>
    rw [Json.scalar, toList_string]
    exact .string (chars_string s.toList)
  | _ => exact absurd h id

/-- The compact text of a value is tight: one case for each way to build a value. -/
theorem Tight.compact {v : Value} (built : v.Built Scalar.IsJson) : Tight (compact v).toList := by
  induction built with
  | scalar h => exact .scalar h
  | @list items _ ih =>
    have tight : ∀ t ∈ items.map fun v => (Json.compact v).toList, Tight t := by
      intro t mem
      obtain ⟨v, item, rfl⟩ := List.mem_map.mp mem
      exact ih v item
    rw [toList_compact_list]
    exact ((Tight.commas tight).append (.of_plain (by simp))).cons (by decide)
  | @mapping entries keys _ ih =>
    have tight : ∀ t ∈ entries.map fun e => (key false e.1 ++ ":" ++ Json.compact e.2).toList,
        Tight t := by
      intro t mem
      obtain ⟨entry, member, rfl⟩ := List.mem_map.mp mem
      obtain ⟨s, text⟩ := keys entry member
      have name : Tight (key false entry.1).toList := by
        rw [text, key, toList_string]
        exact .string (chars_string s.toList)
      rw [String.toList_append, String.toList_append]
      exact (name.append (.of_plain (by simp))).append (ih entry member)
    rw [toList_compact_mapping]
    exact ((Tight.commas tight).append (.of_plain (by simp))).cons (by decide)

end Values

end RequestWriter.Json

namespace RequestWriter.Body

/-- Writing a body anew changes nothing that is read from it. -/
theorem value?_compact_eq (body : String) : value? (compact body) = value? body := by
  cases read : value? body with
  | none => rw [compact, read, read]
  | some v => exact value?_compact read

/-- Writing a body anew loses nothing and is stable: the text that comes out is read like the body,
records included, and is written as it is. If the body is a JSON text, it holds no control
character, and no white space outside of its strings. -/
theorem compact_stable (body : String) :
    load (some (compact body)) = load (some body) ∧ compact (compact body) = compact body ∧
      ∀ v, (load (some body)).result = .ok (some v) →
        (∀ c ∈ (compact body).toList, 0x20 ≤ c.toNat) ∧
          ∀ c ∈ Json.outside .outside (compact body).toList, ¬Json.Grammar.IsBlank c := by
  refine ⟨?_, ?_, ?_⟩
  · simp only [load, steps, value?_compact_eq]
  · have same := value?_compact_eq body
    cases read : value? body with
    | none =>
      have left : compact body = body := by rw [compact, read]
      rw [left, left]
    | some v =>
      rw [read] at same
      rw [compact, same, compact, read]
  · intro v result
    rw [result_load] at result
    have read : value? body = some v := by simpa using result
    have text : compact body = Json.compact v := by rw [compact, read]
    have tight := Json.Tight.compact (value?_spec read).1
    rw [text]
    obtain ⟨own, noBlank, split⟩ := tight.closed
    have all := split []
    rw [List.append_nil, Json.outside, List.append_nil] at all
    rw [all]
    exact ⟨tight.printable, noBlank⟩

/-- A body on several lines, with a control character and a repeated key. -/
def pretty : String := "\x7b\n\t\"a b\" : [ 1, \"\\u0001\\u00e9 \" ],\r\n\t\"a b\" : -0 \x7d\n"

/-- It is a JSON text, so its compact text is tight. -/
theorem pretty_compacted :
    (load (some pretty)).result = .ok (some (.object [("a b", .int 0)])) ∧
      (∀ c ∈ (compact pretty).toList, 0x20 ≤ c.toNat) ∧
        ∀ c ∈ Json.outside .outside (compact pretty).toList, ¬Json.Grammar.IsBlank c := by
  have result : (load (some pretty)).result = .ok (some (.object [("a b", .int 0)])) := rfl
  exact ⟨result, (compact_stable pretty).2.2 _ result⟩

end RequestWriter.Body
