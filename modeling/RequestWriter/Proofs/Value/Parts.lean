import RequestWriter.Json.Reader

/-!
# Parts of values

A part of a value lies inside a number of its containers. The depth bound of a writer speaks about
that number, so it is an index here: a value is nested within a bound when none of its parts lies
inside more containers, and to prune a value is to put null in the place of the parts that lie
deepest.
-/

namespace RequestWriter

namespace Value

/-- The value `w` is a part of `v` that lies inside exactly `k` of its containers. -/
inductive Inside (w : Value) : Nat → Value → Prop
  | self : Inside w 0 w
  | item {k : Nat} {v : Value} {items : List Value} (mem : v ∈ items) (h : Inside w k v) :
      Inside w (k + 1) (.list items)
  | entry {k : Nat} {entry : Scalar × Value} {entries : List (Scalar × Value)}
      (mem : entry ∈ entries) (h : Inside w k entry.2) : Inside w (k + 1) (.mapping entries)

theorem inside_scalar {w : Value} {k : Nat} {s : Scalar} (h : Inside w k (.scalar s)) :
    w = .scalar s := by
  generalize eq : Value.scalar s = v at h
  cases h with
  | self => rfl
  | item | entry => cases eq

theorem inside_list {w : Value} {k : Nat} {items : List Value} (h : Inside w k (.list items)) :
    w = .list items ∨ ∃ j, k = j + 1 ∧ ∃ v ∈ items, Inside w j v := by
  generalize eq : Value.list items = v at h
  cases h with
  | self => exact .inl rfl
  | item mem inside =>
    cases eq
    exact .inr ⟨_, rfl, _, mem, inside⟩
  | entry => cases eq

theorem inside_mapping {w : Value} {k : Nat} {entries : List (Scalar × Value)}
    (h : Inside w k (.mapping entries)) :
    w = .mapping entries ∨ ∃ j, k = j + 1 ∧ ∃ entry ∈ entries, Inside w j entry.2 := by
  generalize eq : Value.mapping entries = v at h
  cases h with
  | self => exact .inl rfl
  | item => cases eq
  | entry mem inside =>
    cases eq
    exact .inr ⟨_, rfl, _, mem, inside⟩

/-- Every part of the value lies inside at most `bound` containers. -/
def NestedWithin (bound : Int) (v : Value) : Prop := ∀ w k, Inside w k v → (k : Int) ≤ bound

theorem NestedWithin.nonneg {bound : Int} {v : Value} (h : v.NestedWithin bound) : 0 ≤ bound :=
  h v 0 .self

theorem NestedWithin.item {bound : Int} {items : List Value} {v : Value}
    (h : (Value.list items).NestedWithin bound) (mem : v ∈ items) :
    v.NestedWithin (bound - 1) := by
  intro w k inside
  have := h w (k + 1) (.item mem inside)
  omega

theorem NestedWithin.entry {bound : Int} {entries : List (Scalar × Value)} {entry : Scalar × Value}
    (h : (Value.mapping entries).NestedWithin bound) (mem : entry ∈ entries) :
    entry.2.NestedWithin (bound - 1) := by
  intro w k inside
  have := h w (k + 1) (.entry mem inside)
  omega

theorem nestedWithin_scalar {bound : Int} (nonneg : 0 ≤ bound) (s : Scalar) :
    (Value.scalar s).NestedWithin bound := by
  rintro w k ⟨⟩
  exact nonneg

theorem nestedWithin_list {bound : Int} {items : List Value} (nonneg : 0 ≤ bound)
    (h : ∀ v ∈ items, v.NestedWithin (bound - 1)) : (Value.list items).NestedWithin bound := by
  rintro w k (_ | ⟨mem, inside⟩)
  · exact nonneg
  · have := h _ mem w _ inside
    omega

theorem nestedWithin_mapping {bound : Int} {entries : List (Scalar × Value)} (nonneg : 0 ≤ bound)
    (h : ∀ entry ∈ entries, entry.2.NestedWithin (bound - 1)) :
    (Value.mapping entries).NestedWithin bound := by
  rintro w k (_ | _ | ⟨mem, inside⟩)
  · exact nonneg
  · have := h _ mem w _ inside
    omega

@[simp] theorem nestedWithin_scalar_iff {bound : Int} {s : Scalar} :
    (Value.scalar s).NestedWithin bound ↔ 0 ≤ bound :=
  ⟨NestedWithin.nonneg, fun nonneg => nestedWithin_scalar nonneg s⟩

@[simp] theorem nestedWithin_list_iff {bound : Int} {items : List Value} :
    (Value.list items).NestedWithin bound ↔
      0 ≤ bound ∧ ∀ v ∈ items, v.NestedWithin (bound - 1) :=
  ⟨fun h => ⟨h.nonneg, fun _ => h.item⟩, fun h => nestedWithin_list h.1 h.2⟩

@[simp] theorem nestedWithin_mapping_iff {bound : Int} {entries : List (Scalar × Value)} :
    (Value.mapping entries).NestedWithin bound ↔
      0 ≤ bound ∧ ∀ entry ∈ entries, entry.2.NestedWithin (bound - 1) :=
  ⟨fun h => ⟨h.nonneg, fun _ => h.entry⟩, fun h => nestedWithin_mapping h.1 h.2⟩

/-- The value with null in the place of every part that lies inside exactly `levels` containers. -/
def prune : Nat → Value → Value
  | 0, _ => null
  | _ + 1, .scalar s => .scalar s
  | levels + 1, .list items => .list (items.map (prune levels))
  | levels + 1, .mapping entries =>
    .mapping (entries.map fun entry => (entry.1, prune levels entry.2))
  | _ + 1, .ref i => .ref i

/-- A value that has no parts so deep is left as it is. -/
theorem prune_of_nestedWithin {levels : Nat} {v : Value} (h : v.NestedWithin (levels - 1)) :
    v.prune levels = v := by
  induction levels generalizing v with
  | zero =>
    have := h.nonneg
    omega
  | succ levels ih =>
    cases v with
    | scalar s => rfl
    | ref i => rfl
    | list items =>
      have same : ∀ v ∈ items, v.prune levels = v := by
        intro v mem
        refine ih ?_
        have := h.item mem
        rwa [show ((levels + 1 : Nat) : Int) - 1 - 1 = levels - 1 by omega] at this
      rw [prune, List.map_congr_left same, List.map_id']
    | mapping entries =>
      have same : ∀ entry ∈ entries, (entry.1, entry.2.prune levels) = entry := by
        intro entry mem
        have within : entry.2.NestedWithin (levels - 1) := by
          have := h.entry mem
          rwa [show ((levels + 1 : Nat) : Int) - 1 - 1 = levels - 1 by omega] at this
        rw [ih within]
      rw [prune, List.map_congr_left same, List.map_id']

/-- The value is built from scalars of a class by lists and by mappings whose keys are texts. -/
inductive Built (leaf : Scalar → Prop) : Value → Prop
  | scalar {s : Scalar} (h : leaf s) : Built leaf (.scalar s)
  | list {items : List Value} (h : ∀ v ∈ items, Built leaf v) : Built leaf (.list items)
  | mapping {entries : List (Scalar × Value)}
      (keys : ∀ entry ∈ entries, ∃ s, entry.1 = .text s)
      (h : ∀ entry ∈ entries, Built leaf entry.2) : Built leaf (.mapping entries)

@[simp] theorem built_scalar_iff {leaf : Scalar → Prop} {s : Scalar} :
    (Value.scalar s).Built leaf ↔ leaf s :=
  ⟨fun | .scalar h => h, .scalar⟩

@[simp] theorem built_list_iff {leaf : Scalar → Prop} {items : List Value} :
    (Value.list items).Built leaf ↔ ∀ v ∈ items, v.Built leaf :=
  ⟨fun | .list h => h, .list⟩

@[simp] theorem built_mapping_iff {leaf : Scalar → Prop} {entries : List (Scalar × Value)} :
    (Value.mapping entries).Built leaf ↔
      ∀ entry ∈ entries, (∃ s, entry.1 = .text s) ∧ entry.2.Built leaf :=
  ⟨fun | .mapping keys h => fun entry mem => ⟨keys entry mem, h entry mem⟩,
    fun h => .mapping (fun entry mem => (h entry mem).1) fun entry mem => (h entry mem).2⟩

theorem Built.mono {leaf leaf' : Scalar → Prop} {v : Value} (h : v.Built leaf)
    (imp : ∀ s, leaf s → leaf' s) : v.Built leaf' := by
  induction h with
  | scalar h => exact .scalar (imp _ h)
  | list _ ih => exact .list ih
  | mapping keys _ ih => exact .mapping keys ih

end Value

namespace Scalar

/-- Null, a truth value, a text, or a whole number of at most 4300 digits. -/
def IsPlain : Scalar → Prop
  | .null | .bool _ | .text _ => True
  | .int i => (Nat.toDigits 10 i.natAbs).length ≤ Json.maxIntegerDigits
  | _ => False

/-- A scalar that a JSON text can hold. -/
def IsJson : Scalar → Prop
  | .float d => d.isFinite = true
  | s => s.IsPlain

/-- The scalar is no whole number of more than 4300 digits. -/
def IsShort : Scalar → Prop
  | .int i => (Nat.toDigits 10 i.natAbs).length ≤ Json.maxIntegerDigits
  | _ => True

theorem IsPlain.isJson {s : Scalar} (h : s.IsPlain) : s.IsJson := by
  cases s with
  | float => exact absurd h id
  | _ => exact h

theorem IsJson.isShort {s : Scalar} (h : s.IsJson) : s.IsShort := by
  cases s with
  | int => exact h
  | _ => trivial

end Scalar

end RequestWriter
