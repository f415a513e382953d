import RequestWriter.Proofs.Literal.Cut
import RequestWriter.Proofs.Literal.RoundTrip
import Mathlib.Data.List.Basic

/-!
# The depth bound of literals

The bound on the depth prunes a value and does nothing else. A value under a bound is written as the
pruned value is written under any bound that it does not come to, and each part that is pruned
leaves one record. So the records count the parts that are missing in the text.

A document may contain itself. Its parts are counted where they occur, with references followed, so
a container that contains itself has parts at every depth.
-/

namespace RequestWriter

namespace Value

/-- The parts of a value that lie inside exactly so many containers, in the order of the text. -/
def partsAt (g : Graph) : Nat → Value → List Value
  | 0, v => [v]
  | k + 1, v =>
    match v.expose g with
    | .list items => items.flatMap (partsAt g k)
    | .mapping entries => entries.flatMap fun entry => partsAt g k entry.2
    | _ => []

variable {g : Graph} {v w : Value} {k left : Nat}

/-- Without references the parts are those that lie inside the containers of the value itself. -/
theorem mem_partsAt_iff : w ∈ v.partsAt [] k ↔ Inside w k v := by
  induction k generalizing v with
  | zero =>
    simp only [partsAt, List.mem_singleton]
    refine ⟨fun h => h ▸ .self, fun h => ?_⟩
    cases h
    rfl
  | succ k ih =>
    cases v with
    | scalar s => exact ⟨nofun, nofun⟩
    | ref i => exact ⟨nofun, nofun⟩
    | list items =>
      simp only [partsAt, expose_list, List.mem_flatMap, ih]
      exact ⟨fun ⟨_, mem, inside⟩ => .item mem inside, fun | .item mem inside => ⟨_, mem, inside⟩⟩
    | mapping entries =>
      simp only [partsAt, expose_mapping, List.mem_flatMap, ih]
      exact ⟨fun ⟨_, mem, inside⟩ => .entry mem inside, fun | .entry mem inside => ⟨_, mem, inside⟩⟩

theorem partsAt_of_nestedWithin (nested : v.NestedWithin (k - 1)) : v.partsAt [] k = [] := by
  refine List.eq_nil_iff_forall_not_mem.mpr fun w mem => ?_
  have := nested w k (mem_partsAt_iff.mp mem)
  omega

/-- The parts of a pruned value are the pruned parts of the value, and null stands where a part lies
too deep. -/
theorem partsAt_cut (shallow : k ≤ left) :
    (v.cut g left).partsAt [] k = (v.partsAt g k).map (cut g (left - k)) := by
  induction k generalizing v left with
  | zero => rfl
  | succ k ih =>
    obtain ⟨left, rfl⟩ : ∃ n, left = n + 1 := ⟨left - 1, by omega⟩
    have inner := fun v => ih (v := v) (show k ≤ left by omega)
    rw [cut, partsAt.eq_def g (k + 1)]
    dsimp only
    cases v.expose g with
    | list items => simp [partsAt, List.flatMap_map, List.map_flatMap, inner]
    | mapping entries => simp [partsAt, List.flatMap_map, List.map_flatMap, inner]
    | _ => rfl

/-- Nothing in a pruned value lies deeper than the nulls that were put there. -/
theorem nestedWithin_cut (g : Graph) (left : Nat) (v : Value) :
    (v.cut g left).NestedWithin left := by
  induction left generalizing v with
  | zero => exact nestedWithin_scalar (Int.le_refl 0) _
  | succ left ih =>
    have inner (v : Value) : (v.cut g left).NestedWithin (((left + 1 : Nat) : Int) - 1) := by
      rw [show ((left + 1 : Nat) : Int) - 1 = left by omega]
      exact ih v
    rw [cut]
    cases v.expose g with
    | list items =>
      exact nestedWithin_list (by omega) (List.forall_mem_map.mpr fun v _ => inner v)
    | mapping entries =>
      exact nestedWithin_mapping (by omega) (List.forall_mem_map.mpr fun entry _ => inner entry.2)
    | _ => exact nestedWithin_scalar (by omega) _

/-- No part of the value is a reference. -/
def IsTree (v : Value) : Prop := ∀ i k, ¬Inside (.ref i) k v

theorem isTree_scalar (s : Scalar) : (Value.scalar s).IsTree :=
  fun _ _ inside => nomatch inside_scalar inside

theorem isTree_list {items : List Value} (h : ∀ v ∈ items, v.IsTree) :
    (Value.list items).IsTree := by
  intro i k inside
  obtain eq | ⟨j, -, v, mem, inside⟩ := inside_list inside
  · cases eq
  · exact h v mem i j inside

theorem isTree_mapping {entries : List (Scalar × Value)} (h : ∀ entry ∈ entries, entry.2.IsTree) :
    (Value.mapping entries).IsTree := by
  intro i k inside
  obtain eq | ⟨j, -, entry, mem, inside⟩ := inside_mapping inside
  · cases eq
  · exact h entry mem i j inside

theorem isTree_cut (g : Graph) (left : Nat) (v : Value) : (v.cut g left).IsTree := by
  induction left generalizing v with
  | zero => exact isTree_scalar _
  | succ left ih =>
    rw [cut]
    cases v.expose g with
    | list items => exact isTree_list (List.forall_mem_map.mpr fun v _ => ih v)
    | mapping entries => exact isTree_mapping (List.forall_mem_map.mpr fun entry _ => ih entry.2)
    | _ => exact isTree_scalar _

/-- Where there are no references to follow, to cut is to prune. -/
theorem cut_eq_prune (tree : v.IsTree) (g : Graph) (left : Nat) : v.cut g left = v.prune left := by
  induction left generalizing v with
  | zero => rfl
  | succ left ih =>
    cases v with
    | scalar s => rfl
    | ref i => exact absurd .self (tree i 0)
    | list items =>
      have same : ∀ v ∈ items, v.cut g left = v.prune left :=
        fun v mem => ih fun i k inside => tree i (k + 1) (.item mem inside)
      exact congrArg Value.list (List.map_congr_left same)
    | mapping entries =>
      have same : ∀ entry ∈ entries,
          (entry.1, entry.2.cut g left) = (entry.1, entry.2.prune left) := by
        intro entry mem
        rw [ih fun i k inside => tree i (k + 1) (.entry mem inside)]
      exact congrArg Value.mapping (List.map_congr_left same)

end Value

/-- The scalars of the value and the keys of its mappings are short. -/
inductive Value.IsShort : Value → Prop
  | scalar {s : Scalar} (h : s.IsShort) : IsShort (.scalar s)
  | list {items : List Value} (h : ∀ v ∈ items, IsShort v) : IsShort (.list items)
  | mapping {entries : List (Scalar × Value)} (keys : ∀ entry ∈ entries, entry.1.IsShort)
      (h : ∀ entry ∈ entries, IsShort entry.2) : IsShort (.mapping entries)
  | ref (i : Nat) : IsShort (.ref i)

/-- The values of a document hold short scalars only. -/
structure Document.IsShort (doc : Document) : Prop where
  containers : ∀ container ∈ doc.graph, container.2.IsShort
  root : doc.root.IsShort

@[simp] theorem Value.isShort_scalar_iff {s : Scalar} : (Value.scalar s).IsShort ↔ s.IsShort :=
  ⟨fun | .scalar h => h, .scalar⟩

@[simp] theorem Value.isShort_list_iff {items : List Value} :
    (Value.list items).IsShort ↔ ∀ v ∈ items, v.IsShort :=
  ⟨fun | .list h => h, .list⟩

@[simp] theorem Value.isShort_mapping_iff {entries : List (Scalar × Value)} :
    (Value.mapping entries).IsShort ↔ ∀ entry ∈ entries, entry.1.IsShort ∧ entry.2.IsShort :=
  ⟨fun | .mapping keys h => fun entry mem => ⟨keys entry mem, h entry mem⟩,
    fun h => .mapping (fun entry mem => (h entry mem).1) fun entry mem => (h entry mem).2⟩

@[simp] theorem Value.isShort_ref (i : Nat) : (Value.ref i).IsShort := .ref i

theorem Value.IsShort.expose {g : Graph} (containers : ∀ container ∈ g, container.2.IsShort)
    {v : Value} (h : v.IsShort) : (v.expose g).IsShort := by
  cases h with
  | ref i =>
    rw [Value.expose]
    cases found : g.lookup i with
    | none => exact .scalar trivial
    | some v =>
      obtain ⟨before, after, rfl, -⟩ := List.lookup_eq_some_iff.mp found
      exact containers (i, v) (by simp)
  | scalar h => exact .scalar h
  | list h => exact .list h
  | mapping keys h => exact .mapping keys h

/-- What is cut off leaves short scalars. -/
theorem Value.IsShort.cut {g : Graph} (containers : ∀ container ∈ g, container.2.IsShort)
    {v : Value} (h : v.IsShort) (left : Nat) : (v.cut g left).IsShort := by
  induction left generalizing v with
  | zero => exact .scalar trivial
  | succ left ih =>
    have exposed := h.expose containers
    rw [Value.cut]
    generalize v.expose g = w at exposed
    cases exposed with
    | scalar h => exact .scalar h
    | list h => exact .list (List.forall_mem_map.mpr fun v mem => ih (h v mem))
    | mapping keys h =>
      exact .mapping (List.forall_mem_map.mpr keys)
        (List.forall_mem_map.mpr fun entry mem => ih (h entry mem))
    | ref => exact .scalar trivial

namespace Step

/-- A walk that meets only one record, again and again. -/
theorem play_replicate {α : Type} (value : α) (n : Nat) (r : LogRecord) :
    play value (List.replicate n (.record r)) = ⟨List.replicate n r, .ok value⟩ := by
  induction n with
  | zero => rfl
  | succ n ih =>
    rw [List.replicate_succ, play, ih]
    rfl

end Step

namespace Literal

variable {g : Graph} {v : Value}

/-- The walk over short scalars meets nothing but a record for each part at the bound. -/
theorem steps_eq_replicate (containers : ∀ container ∈ g, container.2.IsShort) (short : v.IsShort)
    (maxDepth : Int) (left : Nat) :
    steps g maxDepth left v =
      List.replicate (v.partsAt g left).length (.record (truncation maxDepth)) := by
  rw [← List.map_const']
  induction left generalizing v with
  | zero => rfl
  | succ left ih =>
    have exposed := short.expose containers
    rw [steps, Value.partsAt]
    generalize v.expose g = w at exposed
    cases exposed with
    | scalar h => exact scalarSteps_of_isShort h
    | list h =>
      rw [List.map_flatMap]
      exact List.flatMap_congr fun v mem => ih (h v mem)
    | mapping keys h =>
      rw [List.map_flatMap]
      refine List.flatMap_congr fun entry mem => ?_
      rw [scalarSteps_of_isShort (keys entry mem), List.nil_append, ih (h entry mem)]
    | ref => rfl

/-- Short scalars are written under any bound. -/
theorem serialize_of_isShort {doc : Document} (short : doc.IsShort) (target : Target)
    (indent maxDepth : Int) :
    serialize target doc indent maxDepth =
      ⟨List.replicate (doc.root.partsAt doc.graph (levelsLeft indent maxDepth)).length
          (truncation maxDepth),
        .ok (render target.dialect doc.graph (levelsLeft indent maxDepth) indent doc.root)⟩ := by
  rw [serialize, steps_eq_replicate short.containers short.root, Step.play_replicate]

/-- A pruned value is written, without a record, under every bound that it does not come to, as the
value is written under the bound at which it was pruned. -/
theorem serialize_cut {doc : Document} (short : doc.IsShort) (target : Target)
    {indent maxDepth bound : Int}
    (nested : (doc.root.cut doc.graph (levelsLeft indent maxDepth)).NestedWithin (bound - indent)) :
    serialize target ⟨[], doc.root.cut doc.graph (levelsLeft indent maxDepth)⟩ indent bound =
      ⟨[], (serialize target doc indent maxDepth).result⟩ := by
  have levels := nestedWithin_levelsLeft nested
  have pruned : Document.IsShort ⟨[], doc.root.cut doc.graph (levelsLeft indent maxDepth)⟩ :=
    ⟨List.forall_mem_nil _, short.root.cut short.containers _⟩
  have whole :
      (doc.root.cut doc.graph (levelsLeft indent maxDepth)).cut [] (levelsLeft indent bound) =
        doc.root.cut doc.graph (levelsLeft indent maxDepth) := by
    rw [Value.cut_eq_prune (Value.isTree_cut _ _ _), Value.prune_of_nestedWithin levels]
  -- Both are written as under a bound beyond either of the two.
  have text := render_cut target.dialect [] [] (Nat.le_max_left (levelsLeft indent bound)
    (levelsLeft indent maxDepth)) indent (doc.root.cut doc.graph (levelsLeft indent maxDepth))
  rw [whole, render_cut _ _ _ (Nat.le_max_right _ _)] at text
  rw [serialize_of_isShort pruned, serialize_of_isShort short, Value.partsAt_of_nestedWithin levels,
    text]
  rfl

/-- Under a bound a value is written as a pruned value: null stands in the place of every part that
lies inside one container more than the bound allows, and in the place of the value itself where the
indentation is beyond the bound. The pruned value is written the same under every bound that it does
not come to, and for each part that was replaced there is one null and one record. -/
theorem serialize_pruned {doc : Document} (short : doc.IsShort) (target : Target)
    (indent maxDepth : Int) :
    let levels := (maxDepth - indent + 1).toNat
    let replaced := doc.root.partsAt doc.graph levels
    let pruned := doc.root.cut doc.graph levels
    ∃ text, (serialize target doc indent maxDepth).result = .ok text ∧
      (serialize target doc indent maxDepth).records = replaced.map (fun _ => truncation maxDepth) ∧
      pruned.partsAt [] levels = replaced.map (fun _ => .null) ∧ pruned.NestedWithin levels ∧
      ∀ bound, pruned.NestedWithin (bound - indent) →
        serialize target ⟨[], pruned⟩ indent bound = ⟨[], .ok text⟩ := by
  intro levels replaced pruned
  have written := serialize_of_isShort short target indent maxDepth
  refine ⟨_, congrArg Logged.result written, ?_, ?_, Value.nestedWithin_cut _ _ _,
    fun bound nested => ?_⟩
  · exact (congrArg Logged.records written).trans List.map_const'.symm
  · rw [Value.partsAt_cut (Nat.le_refl levels), Nat.sub_self]
    rfl
  · have same := serialize_cut short target nested
    rwa [written] at same

/-- A list that holds a number and itself. -/
def looped : Document := ⟨[(0, .list [.int 1, .ref 0])], .list [.int 1, .ref 0]⟩

/-- The conditions of `serialize_pruned` hold for `looped`. Of the list inside itself nothing but
nulls is left at the bound 1, one for each of its two parts, and the bound 2 is large enough for
them. -/
theorem looped_pruned :
    looped.IsShort ∧ ∃ text, (serialize .ruby looped 0 1).result = .ok text ∧
      (serialize .ruby looped 0 1).records = [truncation 1, truncation 1] ∧
      serialize .ruby ⟨[], .list [.int 1, .list [.null, .null]]⟩ 0 2 = ⟨[], .ok text⟩ := by
  have list : (Value.list [.int 1, .ref 0]).IsShort := by
    have short : (Nat.toDigits 10 1).length ≤ Json.maxIntegerDigits := by decide
    simpa [Value.int, Scalar.IsShort] using short
  have short : looped.IsShort := ⟨List.forall_mem_singleton.mpr list, list⟩
  obtain ⟨text, result, records, -, nested, same⟩ := serialize_pruned short .ruby 0 1
  exact ⟨short, text, result, records, same 2 nested⟩

end Literal

end RequestWriter
