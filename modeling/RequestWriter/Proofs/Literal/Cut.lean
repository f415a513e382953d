import RequestWriter.Literal.Render

/-!
# The part of a value that is written

A writer of literals follows references and stops at its depth bound, so what it writes is a finite
part of a value that may contain itself. That part is a value of its own, and writing it never comes
to the bound: with any larger bound the text is the same, and so is the fault if there is one.
-/

namespace RequestWriter

namespace Value

/-- The value without references, with null in the place of every part that lies inside exactly so
many containers. -/
def cut (g : Graph) : Nat → Value → Value
  | 0, _ => null
  | levels + 1, v =>
    match v.expose g with
    | .scalar s => .scalar s
    | .list items => .list (items.map (cut g levels))
    | .mapping entries => .mapping (entries.map fun entry => (entry.1, cut g levels entry.2))
    | .ref _ => null

end Value

namespace Literal

variable {g : Graph} {left more : Nat}

/-- What is cut off at the bound would be written as null anyway. -/
theorem render_cut (d : Dialect) (g g' : Graph) (enough : left ≤ more) (level : Int) (v : Value) :
    render d g' more level (v.cut g left) = render d g left level v := by
  induction left generalizing more level v with
  | zero => cases more <;> rfl
  | succ left ih =>
    obtain ⟨more, rfl⟩ : ∃ n, more = n + 1 := ⟨more - 1, by omega⟩
    have parts := fun v => ih (show left ≤ more by omega) (level + 1) v
    -- Only the writer of `v` is opened: the one of its cut waits until the form of `v` is known.
    rw [Value.cut, render.eq_def d g (left + 1)]
    dsimp only
    cases v.expose g with
    | scalar s => rfl
    | list items => simp [render, parts, Function.comp_def]
    | mapping entries => simp [render, parts, Function.comp_def]
    | ref i => rfl

/-- Cutting off changes the records of the walk only. -/
theorem faults_cut (g g' : Graph) (enough : left ≤ more) (maxDepth maxDepth' : Int) (v : Value) :
    (steps g' maxDepth' more (v.cut g left)).filterMap Step.fault? =
      (steps g maxDepth left v).filterMap Step.fault? := by
  induction left generalizing more v with
  -- The walk over `v` records the bound here, and the one over null does so if it is at its own.
  | zero => cases more <;> rfl
  | succ left ih =>
    obtain ⟨more, rfl⟩ : ∃ n, more = n + 1 := ⟨more - 1, by omega⟩
    have parts := fun v => ih (show left ≤ more by omega) v
    rw [Value.cut, steps.eq_def g maxDepth (left + 1)]
    dsimp only
    cases v.expose g with
    | scalar s => rfl
    | list items => simp [steps, List.flatMap_map, List.filterMap_flatMap, parts]
    | mapping entries =>
      simp [steps, List.flatMap_map, List.filterMap_flatMap, List.filterMap_append, parts]
    | ref i => rfl

/-- A literal is that of the part that is written, under any larger bound. -/
theorem result_serialize_cut (target : Target) (doc : Document) (g' : Graph) {indent maxDepth : Int}
    {maxDepth' : Int} (larger : maxDepth ≤ maxDepth') :
    (serialize target ⟨g', doc.root.cut doc.graph (levelsLeft indent maxDepth)⟩ indent
        maxDepth').result =
      (serialize target doc indent maxDepth).result := by
  have enough : levelsLeft indent maxDepth ≤ levelsLeft indent maxDepth' := by
    unfold levelsLeft
    omega
  rw [serialize, serialize, Step.result_play, Step.result_play, render_cut _ _ _ enough,
    faults_cut _ _ enough maxDepth maxDepth']

end Literal

end RequestWriter
