import RequestWriter.Proofs.Json.Reading
import RequestWriter.Body

/-!
# Which bodies are JSON

Reading a whole text against the production `JSON-text`. The reader gives up at a depth of nesting
that no text nested at most 300 levels comes near, so for such a text its answer is the answer of
the grammar: the value that the grammar denotes, or nothing. Reading a body never fails.
-/

namespace RequestWriter.Json

open Grammar

theorem read?_sound {text : String} {v : Value} (h : read? text = some v) :
    Grammar.Text text.toList v := by
  obtain ⟨⟨w, rest⟩, read, ends⟩ := Option.bind_eq_some_iff.mp h
  obtain ⟨before, gap⟩ := exists_blanks text.toList
  obtain ⟨t, split, denotes⟩ := value?_sound read
  obtain ⟨after, gap'⟩ := exists_blanks rest
  dsimp only at ends
  split at ends
  · next nothing =>
    cases ends
    rw [List.isEmpty_iff.mp nothing, List.append_nil] at gap'
    rw [gap, split, gap', ← List.append_assoc]
    exact .mk before after denotes
  · cases ends

theorem text_parts {cs : List Char} {v : Value} (h : Grammar.Text cs v) :
    ∃ (before : Blanks) (t : List Char) (after : Blanks),
      cs = before ++ t ++ after ∧ Denotes t v := by
  obtain ⟨before, after, denotes⟩ := h
  exact ⟨before, _, after, rfl, denotes⟩

theorem read?_complete {text : String} {v : Value} (h : Grammar.Text text.toList v)
    (shallow : nesting text.toList < maxNesting) : read? text = some v := by
  obtain ⟨before, t, after, eq, denotes⟩ := text_parts h
  have blank : ∀ b : Blanks, Balanced b.1 :=
    fun b => .of_flat fun c hc => isFlat_blank (b.2 c hc)
  obtain ⟨front, frontNesting⟩ := (blank before).append (Balanced.of_denotes denotes)
  obtain ⟨-, wholeNesting⟩ := front.append (blank after)
  have start : skipSpaces text.toList = t ++ after := by
    rw [eq, List.append_assoc, skipSpaces_blanks]
    exact skipSpaces_of_begins ((begins_denotes denotes).append after)
  have stop : Ends after.1 := by
    have := ends_append (fun c hc => isSpace_of_mem (b := after) hc) (starts_nil _)
    rwa [List.append_nil] at this
  have left : skipSpaces after.1 = [] := by
    have := skipSpaces_blanks after []
    rwa [List.append_nil] at this
  have read := value?_append denotes
    (show t.length ≤ (t ++ after.1).length + 1 by simp; omega)
    (show nesting t < maxNesting by rw [eq, wholeNesting, frontNesting] at shallow; omega) stop
  rw [read?]
  dsimp only
  rw [start, read]
  simp [left]

theorem read?_eq_some_iff {text : String} (shallow : nesting text.toList < maxNesting)
    {v : Value} : read? text = some v ↔ Grammar.Text text.toList v :=
  ⟨read?_sound, fun h => read?_complete h shallow⟩

end RequestWriter.Json

namespace RequestWriter.Body

open Json

/-- Reading a body leaves records only, so it never ends with a fault. -/
theorem result_load (body : String) : (load (some body)).result = .ok (value? body) := by
  refine Step.result_play_of_forall _ _ fun fault mem => ?_
  unfold steps at mem
  split at mem <;> simp at mem

/-- A body nested at most 300 levels is accepted exactly when it is a text of the grammar, with the
value that the grammar gives it. Any other body is answered with no value, and never with a
fault. -/
theorem load_accepts_grammar (body : String) (shallow : nesting body.toList ≤ 300) :
    (∀ v, (load (some body)).result = .ok (some v) ↔ Grammar.Text body.toList v) ∧
      ((¬∃ v, Grammar.Text body.toList v) → (load (some body)).result = .ok none) := by
  have levels : nesting body.toList < maxNesting := Nat.lt_of_le_of_lt shallow (by decide)
  have accepts : ∀ v, (load (some body)).result = .ok (some v) ↔ Grammar.Text body.toList v := by
    intro v
    rw [result_load, ← read?_eq_some_iff levels]
    simp [value?]
  refine ⟨accepts, fun none => ?_⟩
  cases read : value? body with
  | none => rw [result_load, read]
  | some v =>
    have result : (load (some body)).result = .ok (some v) := by rw [result_load, read]
    exact absurd ⟨v, (accepts v).mp result⟩ none

/-- The conditions of `load_accepts_grammar` hold for a body with a nested list, an escape, a
repeated key, a negative zero and blanks, and its value is as the grammar says. -/
theorem load_accepts_repeated_key :
    nesting "\x7b\"a\": [[1], \"\\u00e9\"], \"b\": null, \"a\": -0 \x7d ".toList ≤ 300 ∧
      Grammar.Text "\x7b\"a\": [[1], \"\\u00e9\"], \"b\": null, \"a\": -0 \x7d ".toList
        (.object [("a", .int 0), ("b", .null)]) := by
  have shallow :
      nesting "\x7b\"a\": [[1], \"\\u00e9\"], \"b\": null, \"a\": -0 \x7d ".toList ≤ 300 := by
    decide
  refine ⟨shallow, ((load_accepts_grammar _ shallow).1 _).mp ?_⟩
  rfl

end RequestWriter.Body
