import RequestWriter.Proofs.Schema.Walk
import RequestWriter.Proofs.Literal.Cut
import RequestWriter.Proofs.Entries

/-!
# Examples on display

An example that is synthesized under the usual bound is written as a literal under the usual bound.
The two bounds are the same number, and what lies beyond the second one in an example is the null
that was put there by the first one. So no larger bound of the writer shows more of an example, even
of a schema that contains itself.
-/

namespace RequestWriter.Schema

variable {g : Graph} {schema choices v : Value}

/-- The choices hold texts only: the items of a list and the values of a mapping are texts. -/
def HoldsTexts (g : Graph) (choices : Value) : Prop :=
  (∀ items, choices.expose g = .list items → ∀ v ∈ items, ∃ s, v = .text s) ∧
    ∀ entries, choices.expose g = .mapping entries → ∀ entry ∈ entries, ∃ s, entry.2 = .text s

/-- The schema has no example, and the choices of a text hold texts only. -/
structure Plain (g : Graph) (schema : Value) : Prop where
  noExample : keyword? g "example" schema = none
  texts : HasType g "string" schema → ∀ choices, keyword? g "enum" schema = some choices →
    HoldsTexts g choices

theorem scalar_of_first (texts : HoldsTexts g choices) (h : First g choices v) :
    ∃ s, v = .scalar s := by
  cases h with
  | item h =>
    obtain ⟨s, rfl⟩ := texts.1 _ h _ List.mem_cons_self
    exact ⟨_, rfl⟩
  | character | octet => exact ⟨_, rfl⟩
  | entry h found =>
    obtain ⟨entry, mem, rfl⟩ := Entries.mem_of_get? found
    obtain ⟨s, eq⟩ := texts.2 _ h entry mem
    exact ⟨_, eq⟩

/-- What stands for a text is a scalar; null where the walk fails. -/
theorem scalar_of_textExample (plain : Plain g schema) (type : HasType g "string" schema) :
    ∃ s, (textExample g (declaredChoices g schema)).toOption.getD .null = .scalar s := by
  cases eq : textExample g (declaredChoices g schema) with
  | error fault => exact ⟨.null, rfl⟩
  | ok v =>
    unfold textExample at eq
    split at eq
    · have first := first_eq_ok_iff.mp eq
      unfold declaredChoices at first
      cases enum : keyword? g "enum" schema with
      | none =>
        rw [enum] at first
        nomatch first
      | some choices =>
        rw [enum] at first
        exact scalar_of_first (plain.texts type choices enum) first
    · cases eq
      exact ⟨_, rfl⟩

/-- The levels of an example are the levels of its schema, and null stands on the first level beyond
the bound. -/
theorem cut_sample (g' : Graph) (plain : ∀ k part, Reaches g part k schema → Plain g part)
    (left : Nat) : (sample g left schema).cut g' left = sample g left schema := by
  induction left generalizing schema with
  | zero => rfl
  | succ left ih =>
    have own := plain 0 schema .self
    have shaped := shaped_shape g schema
    rw [sample]
    generalize shape g schema = s at shaped
    cases shaped with
    | given h =>
      rw [own.noExample] at h
      cases h
    | object type =>
      have same : ∀ entry ∈ declaredProperties g schema,
          (entry.1, (sample g left entry.2).cut g' left) = (entry.1, sample g left entry.2) := by
        intro entry mem
        rw [ih fun k part h => plain (k + 1) part (.property type mem h)]
      simpa [Value.cut, Function.comp_def] using same
    | array type declared =>
      have same := ih fun k part h => plain (k + 1) part (.items type declared h)
      simp [Value.cut, same]
    | text type =>
      obtain ⟨s, eq⟩ := scalar_of_textExample own type
      dsimp only
      rw [eq]
      rfl
    | _ => rfl

/-- An example of a schema that shows nothing by example and chooses among texts is written in the
same way under the usual bound and under any larger one, and what the writer leaves out at the usual
bound is null in the example. -/
theorem serialize_synthesized {doc : Document}
    (plain : ∀ k part, Reaches doc.graph part k doc.root → Plain doc.graph part) (target : Target)
    {maxDepth : Int} (larger : Literal.defaultMaxDepth ≤ maxDepth) :
    (synthesize doc >>= fun v => Literal.serialize target ⟨doc.graph, v⟩ 0 maxDepth).result =
        (synthesize doc >>= fun v =>
          Literal.serialize target ⟨doc.graph, v⟩ 0 Literal.defaultMaxDepth).result ∧
      ∀ v, (synthesize doc).result = .ok v → v.cut doc.graph 33 = v := by
  have whole : ∀ v, (synthesize doc).result = .ok v → v.cut doc.graph 33 = v := by
    intro v h
    rw [(Step.result_play_eq_ok_iff.mp h).1]
    exact cut_sample doc.graph plain 33
  refine ⟨?_, whole⟩
  rw [Logged.result_bind, Logged.result_bind]
  cases eq : (synthesize doc).result with
  | error fault => rfl
  | ok v =>
    -- The example is its own cut, and a cut is written alike under any larger bound.
    have same : (Literal.serialize target ⟨doc.graph, v.cut doc.graph 33⟩ 0 maxDepth).result =
        (Literal.serialize target ⟨doc.graph, v⟩ 0 Literal.defaultMaxDepth).result :=
      Literal.result_serialize_cut target ⟨doc.graph, v⟩ doc.graph larger
    rwa [whole v eq] at same

/-- A list of lists of this very kind. -/
def nest : Value := .object [("type", .text "array"), ("items", .ref 0)]

/-- The schema `nest` with what its reference stands for. -/
def nested : Document := ⟨[(0, nest)], nest⟩

theorem plain_nested {k : Nat} {part : Value} (h : Reaches nested.graph part k nested.root) :
    Plain nested.graph part := by
  have known : part = nest ∨ part = .ref 0 := by
    refine h.closed (fun s => s = nest ∨ s = .ref 0) (.inl rfl) ?_
    rintro s (rfl | rfl) child mem <;> exact .inr (List.mem_singleton.mp mem)
  rcases known with rfl | rfl <;>
    exact ⟨rfl, fun type => nomatch (type.iff "array").mp ⟨rfl, rfl⟩⟩

/-- The conditions of `serialize_synthesized` hold for `nested`, whose example runs into the bound:
it is written, and in the same way with a bound of 100. -/
theorem nested_written :
    (∀ k part, Reaches nested.graph part k nested.root → Plain nested.graph part) ∧
      Literal.defaultMaxDepth ≤ 100 ∧
      ∃ text, (synthesize nested >>= fun v =>
          Literal.serialize .python ⟨nested.graph, v⟩ 0 Literal.defaultMaxDepth).result = .ok text ∧
        (synthesize nested >>= fun v =>
          Literal.serialize .python ⟨nested.graph, v⟩ 0 100).result = .ok text := by
  have plain : ∀ k part, Reaches nested.graph part k nested.root → Plain nested.graph part :=
    fun _ _ => plain_nested
  have larger : Literal.defaultMaxDepth ≤ 100 := by decide
  refine ⟨plain, larger, _, rfl, ?_⟩
  rw [(serialize_synthesized plain .python larger).1]
  rfl

end RequestWriter.Schema
