import RequestWriter.Proofs.Json.Acceptance
import RequestWriter.Proofs.Json.Integer
import RequestWriter.Proofs.Value.Parts

/-!
# What a JSON text denotes

The values that a JSON text can stand for: their scalars are those that JSON can spell, the keys of
their mappings are texts and stand there once, and they are nested no deeper than the reader goes.
The printers rely on all of this, so whatever was read can be written.
-/

namespace RequestWriter

namespace Value

/-- No mapping inside the value has a key twice. -/
def DistinctKeys (v : Value) : Prop :=
  ∀ entries k, Inside (.mapping entries) k v → (entries.map Prod.fst).Nodup

@[simp] theorem distinctKeys_scalar (s : Scalar) : (Value.scalar s).DistinctKeys := by
  rintro entries k ⟨⟩

theorem distinctKeys_list {items : List Value} (h : ∀ v ∈ items, v.DistinctKeys) :
    (Value.list items).DistinctKeys := by
  rintro entries k (_ | ⟨mem, inside⟩)
  exact h _ mem entries _ inside

theorem distinctKeys_mapping {entries : List (Scalar × Value)}
    (nodup : (entries.map Prod.fst).Nodup) (h : ∀ entry ∈ entries, entry.2.DistinctKeys) :
    (Value.mapping entries).DistinctKeys := by
  rintro inner k (_ | _ | ⟨mem, inside⟩)
  · exact nodup
  · exact h _ mem inner _ inside

theorem DistinctKeys.item {items : List Value} {v : Value} (h : (Value.list items).DistinctKeys)
    (mem : v ∈ items) : v.DistinctKeys :=
  fun entries k inside => h entries (k + 1) (.item mem inside)

theorem DistinctKeys.nodup {entries : List (Scalar × Value)}
    (h : (Value.mapping entries).DistinctKeys) : (entries.map Prod.fst).Nodup :=
  h entries 0 .self

theorem DistinctKeys.entry {entries : List (Scalar × Value)} {entry : Scalar × Value}
    (h : (Value.mapping entries).DistinctKeys) (mem : entry ∈ entries) : entry.2.DistinctKeys :=
  fun inner k inside => h inner (k + 1) (.entry mem inside)

@[simp] theorem distinctKeys_list_iff {items : List Value} :
    (Value.list items).DistinctKeys ↔ ∀ v ∈ items, v.DistinctKeys :=
  ⟨fun h _ => h.item, distinctKeys_list⟩

@[simp] theorem distinctKeys_mapping_iff {entries : List (Scalar × Value)} :
    (Value.mapping entries).DistinctKeys ↔
      (entries.map Prod.fst).Nodup ∧ ∀ entry ∈ entries, entry.2.DistinctKeys :=
  ⟨fun h => ⟨h.nodup, fun _ => h.entry⟩, fun h => distinctKeys_mapping h.1 h.2⟩

end Value

namespace Json

open Grammar

theorem spelled_lt {digits : List Char} (h : ∀ c ∈ digits, c.isDigit = true) :
    spelled digits < tenTo digits.length := by
  induction digits with
  | nil => decide
  | cons c digits ih =>
    have rest := ih fun x hx => h x (List.mem_cons_of_mem c hx)
    have digit := h c List.mem_cons_self
    simp only [Char.isDigit, Bool.and_eq_true, decide_eq_true_eq, UInt32.le_iff_toNat_le] at digit
    have value : c.toNat - '0'.toNat ≤ 9 := by
      have := digit.2
      simp at this ⊢
      exact this
    have step : tenTo (digits.length + 1) = tenTo digits.length * 10 := rfl
    have front := Nat.mul_le_mul_left (tenTo digits.length) value
    rw [spelled, Nat.ofDigitChars_cons, Nat.ofDigitChars_eq_ofDigitChars_zero, List.length_cons,
      step, Nat.mul_zero, Nat.zero_add]
    change tenTo digits.length * _ + spelled digits < _
    omega

theorem isDigit_of_whole {whole : List Char} (h : Whole whole) :
    ∀ c ∈ whole, c.isDigit = true := by
  cases h with
  | zero => simp
  | digits first nonzero rest =>
    intro c hc
    rcases List.mem_cons.mp hc with rfl | hc
    · exact first
    · exact rest c hc

/-- A whole part begins with a digit. -/
theorem exists_cons_of_whole {whole : List Char} (h : Whole whole) :
    ∃ d ds, whole = d :: ds ∧ d.isDigit = true := by
  cases h with
  | zero => exact ⟨'0', [], rfl, rfl⟩
  | digits first => exact ⟨_, _, rfl, first⟩

/-- The value of a number is a scalar that JSON can spell. -/
theorem isJson_of_number {t : List Char} {v : Value} (h : Number t v) :
    ∃ s : Scalar, v = .scalar s ∧ s.IsJson := by
  cases h with
  | @integer sign whole negative sgn int short =>
    have nonempty : 0 < whole.length := by
      cases int <;> simp
    have size : (signed negative (spelled whole)).natAbs = spelled whole := by
      cases negative <;> simp [signed]
    refine ⟨_, rfl, ?_⟩
    have digits := (lt_tenTo_iff nonempty).mp (spelled_lt (isDigit_of_whole int))
    rw [← size] at digits
    exact Nat.le_trans digits short
  | float sgn int fracPart expPart form finite => exact ⟨_, rfl, finite⟩

/-- An object has the values of its members, under texts that stand there once. -/
theorem assigned_eq (pairs : List (String × Value)) :
    ∃ entries, assigned pairs = .mapping entries ∧
      (∀ entry ∈ entries, ∃ s, entry.1 = .text s) ∧ (entries.map Prod.fst).Nodup ∧
      ∀ entry ∈ entries, ∃ pair ∈ pairs, pair.2 = entry.2 := by
  refine ⟨_, (Entries.mapping_ofPairs pairs).symm, ?_, ?_, ?_⟩
  · intro entry mem
    rw [Entries.ofPairs_ofText] at mem
    obtain ⟨pair, -, rfl⟩ := List.mem_map.mp mem
    exact ⟨pair.1, rfl⟩
  · have keys : (Entries.ofPairs (pairs.map Entries.ofText)).map Prod.fst =
        (pairs.map Prod.fst).eraseDups.map Scalar.text := by
      rw [Entries.ofPairs_ofText, Entries.ofPairs_eq]
      simp [Entries.ofText, Function.comp_def]
    rw [keys]
    exact List.pairwise_map.mpr
      ((Entries.nodup_eraseDups _).imp fun ne eq => ne (Scalar.text.inj eq))
  · intro entry mem
    obtain ⟨_, found, value⟩ := Entries.mem_ofPairs mem
    obtain ⟨pair, hp, rfl⟩ := List.mem_map.mp found
    exact ⟨pair, hp, value⟩

/-- The scalars of a JSON value can be spelled, and its keys are texts that stand there once. -/
theorem built_of_denotes {t : List Char} {v : Value} (h : Denotes t v) :
    v.Built Scalar.IsJson ∧ v.DistinctKeys := by
  induction h with
  | null | yes | no | string => exact ⟨.scalar trivial, Value.distinctKeys_scalar _⟩
  | number h =>
    obtain ⟨s, rfl, isJson⟩ := isJson_of_number h
    exact ⟨.scalar isJson, Value.distinctKeys_scalar s⟩
  | emptyList => exact ⟨.list (by simp), Value.distinctKeys_list (by simp)⟩
  | @list items nonempty values ih =>
    refine ⟨.list fun v mem => ?_, Value.distinctKeys_list fun v mem => ?_⟩ <;>
      obtain ⟨i, hi, rfl⟩ := List.mem_map.mp mem
    · exact (ih i hi).1
    · exact (ih i hi).2
  | emptyObject =>
    exact ⟨.mapping (by simp) (by simp), Value.distinctKeys_mapping (by simp) (by simp)⟩
  | @object members nonempty keys values ih =>
    obtain ⟨entries, eq, texts, nodup, found⟩ := assigned_eq (members.map Member.pair)
    have parts : ∀ entry ∈ entries, entry.2.Built Scalar.IsJson ∧ entry.2.DistinctKeys := by
      intro entry mem
      obtain ⟨pair, hp, value⟩ := found entry mem
      obtain ⟨m, hm, rfl⟩ := List.mem_map.mp hp
      rw [← value]
      exact ih m hm
    rw [eq]
    exact ⟨.mapping texts fun entry mem => (parts entry mem).1,
      Value.distinctKeys_mapping nodup fun entry mem => (parts entry mem).2⟩

/-- Every item of a sequence was read as an item. -/
theorem mem_of_sequence? {α : Type} {item? : List Char → Option (α × List Char)} {close : Char}
    {bound : Nat} {cs rest : List Char} {vs : List α}
    (h : sequence? item? close bound cs = some (vs, rest)) {v : α} (mem : v ∈ vs) :
    ∃ cs rest, item? cs = some (v, rest) := by
  induction bound generalizing cs vs with
  | zero => cases h
  | succ bound ih =>
    rw [sequence?, Option.bind_eq_some_iff] at h
    obtain ⟨⟨first, behind⟩, read, h⟩ := h
    dsimp only at h
    split at h
    · cases h
    · split at h
      · cases h
        rw [List.mem_singleton.mp mem]
        exact ⟨_, _, read⟩
      · split at h
        · obtain ⟨⟨ws, rest'⟩, others, ends⟩ := Option.map_eq_some_iff.mp h
          cases ends
          rcases List.mem_cons.mp mem with rfl | mem
          · exact ⟨_, _, read⟩
          · exact ih others mem
        · cases h

theorem value_of_member? {item? : List Char → Option (Value × List Char)} {cs rest : List Char}
    {pair : Scalar × Value} (h : member? item? cs = some (pair, rest)) :
    ∃ cs rest, item? cs = some (pair.2, rest) := by
  unfold member? at h
  split at h
  · obtain ⟨⟨key, behind⟩, -, h⟩ := Option.bind_eq_some_iff.mp h
    dsimp only at h
    split at h
    · obtain ⟨⟨v, rest'⟩, read, ends⟩ := Option.map_eq_some_iff.mp h
      cases ends
      exact ⟨_, _, read⟩
    · cases h
  · cases h

/-- The reader goes no deeper than it has levels. -/
theorem nestedWithin_of_value? {size depth : Nat} {cs rest : List Char} {v : Value}
    (h : value? size depth cs = some (v, rest)) : v.NestedWithin (depth - 1) := by
  induction depth generalizing cs rest v with
  | zero => cases h
  | succ depth ih =>
    have nonneg : (0 : Int) ≤ (depth + 1 : Nat) - 1 := by omega
    have levels : ((depth + 1 : Nat) : Int) - 1 - 1 = depth - 1 := by omega
    unfold value? at h
    split at h
    · obtain ⟨⟨s, rest'⟩, -, ends⟩ := Option.map_eq_some_iff.mp h
      cases ends
      exact Value.nestedWithin_scalar nonneg _
    · unfold listBody? at h
      split at h
      · cases h
        exact Value.nestedWithin_list nonneg (by simp)
      · obtain ⟨⟨vs, rest'⟩, read, ends⟩ := Option.map_eq_some_iff.mp h
        cases ends
        refine Value.nestedWithin_list nonneg fun v mem => ?_
        obtain ⟨cs, rest, item⟩ := mem_of_sequence? read mem
        rw [levels]
        exact ih item
    · unfold objectBody? at h
      split at h
      · cases h
        exact Value.nestedWithin_mapping nonneg (by simp)
      · obtain ⟨⟨pairs, rest'⟩, read, ends⟩ := Option.map_eq_some_iff.mp h
        cases ends
        refine Value.nestedWithin_mapping nonneg fun entry mem => ?_
        obtain ⟨pair, hp, value⟩ := Entries.mem_ofPairs mem
        obtain ⟨cs, rest, member⟩ := mem_of_sequence? read hp
        obtain ⟨cs, rest, item⟩ := value_of_member? member
        rw [levels, ← value]
        exact ih item
    · cases h
      exact Value.nestedWithin_scalar nonneg _
    · cases h
      exact Value.nestedWithin_scalar nonneg _
    · cases h
      exact Value.nestedWithin_scalar nonneg _
    · obtain ⟨t, -, number⟩ := number?_sound h
      obtain ⟨s, rfl, -⟩ := isJson_of_number number
      exact Value.nestedWithin_scalar nonneg s

end Json

namespace Body

/-- What is known about the value of a body. -/
theorem value?_spec {body : String} {v : Value} (h : value? body = some v) :
    v.Built Scalar.IsJson ∧ v.DistinctKeys ∧ v.NestedWithin (Json.maxNesting - 1) := by
  obtain ⟨_, t, _, _, denotes⟩ := Json.text_parts (Json.read?_sound h)
  obtain ⟨⟨w, rest⟩, read, ends⟩ := Option.bind_eq_some_iff.mp h
  dsimp only at ends
  split at ends
  · cases ends
    exact ⟨(Json.built_of_denotes denotes).1, (Json.built_of_denotes denotes).2,
      Json.nestedWithin_of_value? read⟩
  · cases ends

end Body

end RequestWriter
