import RequestWriter.Proofs.Schema.Conformance
import RequestWriter.Proofs.Schema.Display

/-!
# Deeper walks over a schema

A schema may contain itself, so the value that stands for it depends on the bound of the walk. With
a larger bound the walk goes the same way and further: what it finds differs only where null marks
the place at which the walk with the smaller bound turned back. The induction is on the levels that
are left, since a schema that contains itself has no structure to go by.
-/

namespace RequestWriter

namespace Value

/-- The value differs from the other one only in parts where it is null. -/
inductive Approximates : Value → Value → Prop
  | null (v : Value) : Approximates .null v
  | scalar (s : Scalar) : Approximates (.scalar s) (.scalar s)
  | list {items others : List Value} (length : items.length = others.length)
      (each : ∀ pair ∈ items.zip others, Approximates pair.1 pair.2) :
      Approximates (.list items) (.list others)
  | mapping {entries others : List (Scalar × Value)}
      (keys : entries.map Prod.fst = others.map Prod.fst)
      (each : ∀ pair ∈ entries.zip others, Approximates pair.1.2 pair.2.2) :
      Approximates (.mapping entries) (.mapping others)
  | ref (i : Nat) : Approximates (.ref i) (.ref i)

theorem mem_zip_self {α : Type} {items : List α} {pair : α × α} (h : pair ∈ items.zip items) :
    ∃ item ∈ items, pair = (item, item) := by
  have zipped : items.map (fun item => (item, id item)) = items.zip (items.map id) :=
    List.map_prod_left_eq_zip
  rw [List.map_id] at zipped
  rw [← zipped] at h
  obtain ⟨item, mem, rfl⟩ := List.mem_map.mp h
  exact ⟨item, mem, rfl⟩

theorem approximates_refl : ∀ v : Value, Approximates v v
  | .scalar s => .scalar s
  | .ref i => .ref i
  | .list items => by
    refine .list rfl fun pair mem => ?_
    obtain ⟨item, inside, rfl⟩ := mem_zip_self mem
    exact approximates_refl item
  | .mapping entries => by
    refine .mapping rfl fun pair mem => ?_
    obtain ⟨⟨key, v⟩, inside, rfl⟩ := mem_zip_self mem
    have inner : sizeOf v < sizeOf (key, v) := by
      rw [Prod.mk.sizeOf_spec]
      omega
    have outer := List.sizeOf_lt_of_mem inside
    exact approximates_refl v

/-- The value has at most so many containers inside one another, and none that is inside itself. -/
inductive Layered : Nat → Value → Prop
  | scalar {n : Nat} (s : Scalar) : Layered n (.scalar s)
  | list {n : Nat} {items : List Value} (h : ∀ v ∈ items, Layered n v) :
      Layered (n + 1) (.list items)
  | mapping {n : Nat} {entries : List (Scalar × Value)} (h : ∀ entry ∈ entries, Layered n entry.2) :
      Layered (n + 1) (.mapping entries)

end Value

namespace Step

/-- A walk that ends with its value leaves all of its records. -/
theorem mem_records_play {α : Type} {value v : α} {steps : List Step} {r : LogRecord}
    (returns : (play value steps).result = .ok v) (mem : .record r ∈ steps) :
    r ∈ (play value steps).records := by
  induction steps with
  | nil => cases mem
  | cons step rest ih =>
    cases step with
    | fail fault => cases returns
    | record first =>
      have records : (play value (.record first :: rest)).records =
          first :: (play value rest).records := rfl
      rw [records]
      rcases List.mem_cons.mp mem with same | later
      · cases same
        exact List.mem_cons_self
      · exact List.mem_cons_of_mem _ (ih returns later)

end Step

namespace Schema

open Value (Approximates Layered)

variable {g : Graph} {schema : Value} {left more : Nat}

/-- With more levels left the walk goes on where it turned back, and nowhere else. -/
theorem approximates_sample (deeper : left ≤ more) (schema : Value) :
    Approximates (sample g left schema) (sample g more schema) := by
  induction left generalizing more schema with
  | zero => exact .null _
  | succ left ih =>
    obtain ⟨more, rfl⟩ : ∃ n, more = n + 1 := ⟨more - 1, by omega⟩
    have inner := fun schema => ih (show left ≤ more by omega) schema
    rw [sample, sample]
    cases shape g schema with
    | object properties =>
      refine .mapping (by simp) fun pair mem => ?_
      rw [List.zip_map'] at mem
      obtain ⟨property, -, rfl⟩ := List.mem_map.mp mem
      exact inner property.2
    | array items =>
      refine .list rfl fun pair mem => ?_
      rw [List.mem_singleton.mp mem]
      exact inner items
    | _ => exact Value.approximates_refl _

/-- A walk that comes to no part beyond its bound does not depend on the bound. -/
theorem sample_eq_of_unreached (deeper : left ≤ more)
    (inside : ∀ part, ¬Reaches g part left schema) :
    sample g left schema = sample g more schema := by
  induction left generalizing more schema with
  | zero => exact absurd .self (inside schema)
  | succ left ih =>
    obtain ⟨more, rfl⟩ : ∃ n, more = n + 1 := ⟨more - 1, by omega⟩
    have inner : ∀ child ∈ (shape g schema).below, sample g left child = sample g more child :=
      fun child below => ih (by omega) fun part reached =>
        inside part (reaches_succ_iff.mpr ⟨child, below, reached⟩)
    rw [sample, sample]
    generalize shape g schema = s at inner
    cases s with
    | object properties =>
      refine congrArg Value.mapping (List.map_congr_left fun property mem => ?_)
      rw [inner property.2 (List.mem_map_of_mem mem)]
    | array items => exact congrArg (fun v => Value.list [v]) (inner items List.mem_cons_self)
    | _ => rfl

/-- The bound shows in the records of a walk only, not in its faults. -/
theorem faults_steps (g : Graph) (maxDepth maxDepth' : Int) (left : Nat) (schema : Value) :
    (steps g maxDepth left schema).filterMap Step.fault? =
      (steps g maxDepth' left schema).filterMap Step.fault? := by
  induction left generalizing schema with
  | zero => rfl
  | succ left ih =>
    rw [steps, steps]
    cases shape g schema with
    | object properties => simp [List.filterMap_flatMap, ih]
    | array items => exact ih items
    | _ => rfl

/-- Without examples the levels of a value are levels of the walk. -/
theorem layered_sample (plain : ∀ k part, Reaches g part k schema → Plain g part) (left : Nat) :
    Layered left (sample g left schema) := by
  induction left generalizing schema with
  | zero => exact .scalar _
  | succ left ih =>
    have own := plain 0 schema .self
    have shaped := shaped_shape g schema
    rw [sample]
    generalize shape g schema = s at shaped
    cases shaped with
    | given h =>
      rw [own.noExample] at h
      cases h
    | object type =>
      refine .mapping (List.forall_mem_map.mpr fun property mem => ?_)
      exact ih fun k part h => plain (k + 1) part (.property type mem h)
    | array type declared =>
      refine .list (List.forall_mem_singleton.mpr ?_)
      exact ih fun k part h => plain (k + 1) part (.items type declared h)
    | text type =>
      obtain ⟨s, eq⟩ := scalar_of_textExample own type
      dsimp only
      rw [eq]
      exact .scalar s
    | emptyObject | absent => exact .mapping (List.forall_mem_nil _)
    | emptyArray => exact .list (List.forall_mem_nil _)
    | number | boolean | unknown => exact .scalar _

/-- A larger bound refines the value that stands for a schema, and leaves it as it is when the walk
with the smaller bound does not come to it. Depth and bound count from anywhere. The value of a
schema that shows nothing by example and chooses among texts has as many containers inside one
another as there are levels within the bound, even if the schema contains itself. -/
theorem synthesizeAt_refines (doc : Document) (depth maxDepth : Int) :
    (∀ maxDepth' v v', maxDepth ≤ maxDepth' →
      (synthesizeAt doc depth maxDepth).result = .ok v →
      (synthesizeAt doc depth maxDepth').result = .ok v' →
        Approximates v v' ∧
          (cutoff maxDepth ∉ (synthesizeAt doc depth maxDepth).records → v = v')) ∧
      (∀ k, (synthesizeAt doc (depth + k) (maxDepth + k)).result =
        (synthesizeAt doc depth maxDepth).result) ∧
      ((∀ k part, Reaches doc.graph part k doc.root → Plain doc.graph part) →
        ∀ v, (synthesizeAt doc depth maxDepth).result = .ok v →
          Layered (max 0 (maxDepth - depth + 1)).toNat v) := by
  refine ⟨fun maxDepth' v v' larger returns returns' => ?_, fun k => ?_, fun plain v returns => ?_⟩
  · have deeper : levelsLeft depth maxDepth ≤ levelsLeft depth maxDepth' := by
      unfold levelsLeft
      omega
    rw [(Step.result_play_eq_ok_iff.mp returns).1, (Step.result_play_eq_ok_iff.mp returns').1]
    refine ⟨approximates_sample deeper doc.root, fun unrecorded => ?_⟩
    refine sample_eq_of_unreached deeper fun part reached => unrecorded ?_
    exact Step.mem_records_play returns (mem_steps_iff.mpr (.inl ⟨rfl, part, reached⟩))
  · have same : levelsLeft (depth + k) (maxDepth + k) = levelsLeft depth maxDepth := by
      unfold levelsLeft
      omega
    rw [synthesizeAt, synthesizeAt, same, Step.result_play, Step.result_play,
      faults_steps _ (maxDepth + k) maxDepth]
  · have levels : (max 0 (maxDepth - depth + 1)).toNat = levelsLeft depth maxDepth := by
      unfold levelsLeft
      omega
    rw [levels, (Step.result_play_eq_ok_iff.mp returns).1]
    exact layered_sample plain _

/-- What `synthesizeAt_refines` says of `nested` and of `pets`: two lists inside one another are
refined to three under the next bound, and a bound beyond all parts changes nothing. -/
theorem nested_refined :
    Approximates (.list [.list [.null]]) (.list [.list [.list [.null]]]) ∧
      (synthesizeAt nested 7 8).result = .ok (.list [.list [.null]]) ∧
      Layered 2 (.list [.list [.null]]) ∧
      (synthesizeAt ⟨[], pets⟩ 0 2).result = (synthesizeAt ⟨[], pets⟩ 0 9).result := by
  obtain ⟨refined, shifted, layered⟩ := synthesizeAt_refines nested 0 1
  obtain ⟨unchanged, -, -⟩ := synthesizeAt_refines ⟨[], pets⟩ 0 2
  refine ⟨(refined 2 _ _ (by decide) rfl rfl).1, shifted 7,
    layered (fun _ _ => plain_nested) _ rfl, ?_⟩
  exact congrArg Except.ok ((unchanged 9 _ _ (by decide) rfl rfl).2 (by decide))

end Schema

end RequestWriter
