import RequestWriter.Proofs.Schema.Walk

/-!
# Where the walk over a schema fails

A schema is not checked before it is walked over, and almost everything in it may be anything. The
one exception is the list of choices of a text: what counts as given there is asked for its first
entry. So the walk gives a value exactly when every text within the bound has no choices or choices
with a first one.
-/

namespace RequestWriter.Schema

variable {doc : Document} {depth maxDepth : Int} {k : Nat}

theorem lt_levelsLeft_iff : k < levelsLeft depth maxDepth ↔ depth + k ≤ maxDepth := by
  unfold levelsLeft
  omega

/-- The choices that the walk asks for a first one: they count as given, and a text within the
bound lists them. -/
structure Asked (doc : Document) (depth maxDepth : Int) (choices : Value) : Prop where
  listed : ∃ k part, Reaches doc.graph part k doc.root ∧ depth + k ≤ maxDepth ∧
    HasType doc.graph "string" part ∧ keyword? doc.graph "enum" part = some choices
  given : choices.truthy = true

theorem fail_mem_steps_iff {fault : Fault} :
    .fail fault ∈ steps doc.graph maxDepth (levelsLeft depth maxDepth) doc.root ↔
      ∃ choices, Asked doc depth maxDepth choices ∧ choices.first doc.graph = .error fault := by
  simp only [mem_steps_iff, reduceCtorEq, false_and, false_or, Step.fail.injEq,
    fault?_eq_some_iff, lt_levelsLeft_iff]
  constructor
  · rintro ⟨k, part, _, reached, within, ⟨type, given, first⟩, rfl⟩
    unfold declaredChoices at given first
    cases eq : keyword? doc.graph "enum" part with
    | none =>
      rw [eq] at given
      cases given
    | some choices =>
      rw [eq] at given first
      exact ⟨choices, ⟨⟨k, part, reached, within, type, eq⟩, given⟩, first⟩
  · rintro ⟨choices, ⟨⟨k, part, reached, within, type, eq⟩, given⟩, first⟩
    have declared : declaredChoices doc.graph part = choices := by rw [declaredChoices, eq]; rfl
    exact ⟨k, part, fault, reached, within, ⟨type, declared ▸ given, declared ▸ first⟩, rfl⟩

/-- The walk gives a value exactly when something stands first among all choices that are asked
for, and a fault that ends it is that of choices where nothing does. -/
theorem synthesizeAt_returns_iff (doc : Document) (depth maxDepth : Int) :
    ((∃ v, (synthesizeAt doc depth maxDepth).result = .ok v) ↔
      ∀ choices, Asked doc depth maxDepth choices → ∃ v, First doc.graph choices v) ∧
    ∀ fault, (synthesizeAt doc depth maxDepth).result = .error fault →
      ∃ choices, Asked doc depth maxDepth choices ∧ choices.first doc.graph = .error fault := by
  refine ⟨⟨?_, fun firsts => ?_⟩, fun fault h => ?_⟩
  · rintro ⟨v, h⟩ choices asked
    cases first : choices.first doc.graph with
    | ok v => exact ⟨v, first_eq_ok_iff.mp first⟩
    | error fault =>
      have mem := fail_mem_steps_iff.mpr ⟨choices, asked, first⟩
      exact absurd mem ((Step.result_play_eq_ok_iff.mp h).2 fault)
  · refine ⟨_, Step.result_play_of_forall _ _ fun fault mem => ?_⟩
    obtain ⟨choices, asked, fails⟩ := fail_mem_steps_iff.mp mem
    obtain ⟨v, first⟩ := firsts choices asked
    rw [first_eq_ok_iff.mpr first] at fails
    cases fails
  · exact fail_mem_steps_iff.mp (Step.fail_mem_of_result_play h)

/-- A number in the place of choices ends the walk. -/
theorem counted_choices_fail :
    ¬∀ (doc : Document) (depth maxDepth : Int),
      ∃ v, (synthesizeAt doc depth maxDepth).result = .ok v := by
  intro returns
  obtain ⟨v, h⟩ := returns ⟨[], .object [("type", .text "string"), ("enum", .int 5)]⟩ 0 32
  cases h

end RequestWriter.Schema
