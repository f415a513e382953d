import RequestWriter.Schema.Example

/-!
# The walk over a schema

Which schemas the walk comes to, said in terms of the keywords of a schema alone: the properties of
an object and the items of an array, level by level. A schema may contain itself, so a part can be
reached on many levels. What the walk meets is what the parts that it reaches are: a text whose
choices have no first one, or a part on the first level beyond the bound.
-/

namespace RequestWriter.Schema

variable {g : Graph} {schema part v : Value} {name : String} {k left : Nat} {maxDepth : Int}

section Keywords

/-- The value of a keyword of a schema, if the schema is a mapping that has it. -/
def keyword? (g : Graph) (name : String) (schema : Value) : Option Value :=
  (schema.expose g).get? name

/-- The schema says nothing by example and has the type. -/
structure HasType (g : Graph) (name : String) (schema : Value) : Prop where
  noExample : keyword? g "example" schema = none
  type : keyword? g "type" schema = some (.text name)

/-- A schema has one type. -/
theorem HasType.iff (h : HasType g name schema) (other : String) :
    HasType g other schema ↔ other = name := by
  refine ⟨fun h' => ?_, fun same => same ▸ h⟩
  have same := h'.type.symm.trans h.type
  simpa [Value.text] using same

theorem not_hasType_of_example (h : keyword? g "example" schema = some v) :
    ¬HasType g name schema := by
  intro typed
  rw [typed.noExample] at h
  cases h

/-- The properties that a schema declares; none if it declares something else in their place. -/
def declaredProperties (g : Graph) (schema : Value) : List (Scalar × Value) :=
  match ((keyword? g "properties" schema).getD .null).expose g with
  | .mapping properties => properties
  | _ => []

/-- The schema of the items of an array, unless it is absent or null. -/
def declaredItems? (g : Graph) (schema : Value) : Option Value :=
  (keyword? g "items" schema).filter fun items => !items.isNull

/-- What is listed as the choices of a text, null if nothing is. -/
def declaredChoices (g : Graph) (schema : Value) : Value :=
  (keyword? g "enum" schema).getD .null

/-- The types that are known. -/
def typeNames : List String := ["object", "array", "string", "number", "integer", "boolean"]

/-- What the keywords of a schema say when the schema has a shape. -/
inductive Shaped (g : Graph) (schema : Value) : Shape → Prop
  | given {v : Value} (h : keyword? g "example" schema = some v) : Shaped g schema (.given v)
  | object (type : HasType g "object" schema) :
      Shaped g schema (.object (declaredProperties g schema))
  | emptyObject (type : HasType g "object" schema) (none : declaredProperties g schema = []) :
      Shaped g schema .emptyObject
  | array {items : Value} (type : HasType g "array" schema)
      (declared : declaredItems? g schema = some items) : Shaped g schema (.array items)
  | emptyArray (type : HasType g "array" schema) (none : declaredItems? g schema = none) :
      Shaped g schema .emptyArray
  | text (type : HasType g "string" schema) : Shaped g schema (.text (declaredChoices g schema))
  | number (type : HasType g "number" schema ∨ HasType g "integer" schema) :
      Shaped g schema .number
  | boolean (type : HasType g "boolean" schema) : Shaped g schema .boolean
  | absent (noExample : keyword? g "example" schema = none)
      (untyped : ∀ name ∈ typeNames, ¬HasType g name schema) : Shaped g schema .absent
  | unknown (noExample : keyword? g "example" schema = none)
      (untyped : ∀ name ∈ typeNames, ¬HasType g name schema) : Shaped g schema .unknown

theorem keyword?_of_mapping {entries : List (Scalar × Value)}
    (h : schema.expose g = .mapping entries) (name : String) :
    keyword? g name schema = (Value.mapping entries).get? name := by
  rw [keyword?, h]

theorem keyword?_eq_none (h : ∀ entries, schema.expose g ≠ .mapping entries) (name : String) :
    keyword? g name schema = none := by
  unfold keyword?
  cases eq : schema.expose g with
  | mapping entries => exact absurd eq (h entries)
  | scalar | list | ref => rfl

theorem declaredItems?_eq (g : Graph) (schema : Value) :
    declaredItems? g schema =
      if ((keyword? g "items" schema).getD .null).isNull then none
      else some ((keyword? g "items" schema).getD .null) := by
  unfold declaredItems?
  cases keyword? g "items" schema with
  | none => rfl
  | some items => cases null : items.isNull <;> simp [Option.filter, null]

/-- Without an example the type decides. -/
theorem shaped_typedShape (noExample : keyword? g "example" schema = none) :
    Shaped g schema (typedShape g ((keyword? g "type" schema).getD .null)
      ((keyword? g "properties" schema).getD .null) ((keyword? g "items" schema).getD .null)
      (declaredChoices g schema)) := by
  have typed : ∀ name, HasType g name schema ↔
      (keyword? g "type" schema).getD .null = .scalar (.text name) := by
    intro name
    refine ⟨fun h => by rw [h.type]; rfl, fun h => ⟨noExample, ?_⟩⟩
    cases eq : keyword? g "type" schema with
    | none =>
      rw [eq] at h
      cases h
    | some w =>
      rw [eq] at h
      exact congrArg some h
  unfold typedShape
  split
  case h_1 type =>
    have type := (typed _).mpr type
    split
    · next properties eq =>
      have declared : declaredProperties g schema = properties := by rw [declaredProperties, eq]
      rw [← declared]
      exact .object type
    · next other =>
      refine .emptyObject type ?_
      unfold declaredProperties
      split
      · next properties eq => exact absurd eq (other properties)
      · rfl
  case h_2 type =>
    have type := (typed _).mpr type
    have items := declaredItems?_eq g schema
    split at items
    · next null =>
      rw [if_pos null]
      exact .emptyArray type items
    · next given =>
      rw [if_neg given]
      exact .array type items
  case h_3 type => exact .text ((typed _).mpr type)
  case h_4 type => exact .number (.inl ((typed _).mpr type))
  case h_5 type => exact .number (.inr ((typed _).mpr type))
  case h_6 type => exact .boolean ((typed _).mpr type)
  case h_7 object array text number integer boolean =>
    -- The split leaves one inequality for each type that it tried, in the order of `typeNames`.
    refine .unknown noExample fun name mem type => ?_
    have type := (typed name).mp type
    simp only [typeNames, List.mem_cons, List.not_mem_nil, or_false] at mem
    rcases mem with rfl | rfl | rfl | rfl | rfl | rfl
    · exact object type
    · exact array type
    · exact text type
    · exact number type
    · exact integer type
    · exact boolean type

/-- The shape of a schema follows its keywords. -/
theorem shaped_shape (g : Graph) (schema : Value) : Shaped g schema (shape g schema) := by
  have untyped (other : ∀ entries, schema.expose g ≠ .mapping entries) :
      keyword? g "example" schema = none ∧ ∀ name ∈ typeNames, ¬HasType g name schema := by
    refine ⟨keyword?_eq_none other _, fun name _ typed => ?_⟩
    have := typed.type
    rw [keyword?_eq_none other] at this
    cases this
  unfold shape
  split
  · next eq =>
    obtain ⟨noExample, untyped⟩ := untyped fun entries => by simp [eq]
    exact .absent noExample untyped
  · next entries eq =>
    have keywords := keyword?_of_mapping eq
    dsimp only
    split
    · next v example_ => exact .given ((keywords _).trans example_)
    · next noExample =>
      simp only [Value.getD, ← keywords] at noExample ⊢
      exact shaped_typedShape noExample
  · next other =>
    obtain ⟨noExample, untyped⟩ := untyped other
    exact .unknown noExample untyped

end Keywords

section Parts

/-- The walk over `schema` comes to `part` exactly `k` levels below it: from an object to the
properties that it declares, from an array to its items. No way leads on from an example. -/
inductive Reaches (g : Graph) (part : Value) : Nat → Value → Prop
  | self : Reaches g part 0 part
  | property {k : Nat} {schema : Value} {entry : Scalar × Value} (type : HasType g "object" schema)
      (mem : entry ∈ declaredProperties g schema) (h : Reaches g part k entry.2) :
      Reaches g part (k + 1) schema
  | items {k : Nat} {schema items : Value} (type : HasType g "array" schema)
      (declared : declaredItems? g schema = some items) (h : Reaches g part k items) :
      Reaches g part (k + 1) schema

/-- The schemas one level below one of the shape. -/
def Shape.below : Shape → List Value
  | .object properties => properties.map Prod.snd
  | .array items => [items]
  | _ => []

theorem mem_below_iff :
    part ∈ (shape g schema).below ↔
      (HasType g "object" schema ∧ ∃ entry ∈ declaredProperties g schema, entry.2 = part) ∨
        (HasType g "array" schema ∧ declaredItems? g schema = some part) := by
  have shaped := shaped_shape g schema
  generalize shape g schema = s at shaped
  cases shaped with
  | given h => simp [Shape.below, not_hasType_of_example h]
  | object type => simp [Shape.below, type.iff]
  | emptyObject type none => simp [Shape.below, type.iff, none]
  | array type declared => simp [Shape.below, type.iff, declared, eq_comm]
  | emptyArray type none => simp [Shape.below, type.iff, none]
  | text type | boolean type => simp [Shape.below, type.iff]
  | number type => rcases type with type | type <;> simp [Shape.below, type.iff]
  | absent _ untyped | unknown _ untyped =>
    simp [Shape.below, untyped "object" (by decide), untyped "array" (by decide)]

theorem reaches_zero_iff : Reaches g part 0 schema ↔ part = schema := by
  refine ⟨fun h => ?_, fun h => h ▸ .self⟩
  cases h
  rfl

theorem reaches_succ_iff :
    Reaches g part (k + 1) schema ↔ ∃ child ∈ (shape g schema).below, Reaches g part k child := by
  simp only [mem_below_iff]
  constructor
  · intro h
    cases h with
    | property type mem h => exact ⟨_, .inl ⟨type, _, mem, rfl⟩, h⟩
    | items type declared h => exact ⟨_, .inr ⟨type, declared⟩, h⟩
  · rintro ⟨child, ⟨type, entry, mem, rfl⟩ | ⟨type, declared⟩, h⟩
    · exact .property type mem h
    · exact .items type declared h

/-- What holds of all parts that are reached holds of the schema itself and, one level further down,
of the parts that are reached from one level below. -/
theorem forall_reaches_iff {holds : Nat → Value → Prop} :
    (∀ k part, Reaches g part k schema → holds k part) ↔
      holds 0 schema ∧ ∀ child ∈ (shape g schema).below, ∀ k part, Reaches g part k child →
        holds (k + 1) part := by
  constructor
  · intro all
    exact ⟨all 0 schema .self, fun child mem k part reached =>
      all (k + 1) part (reaches_succ_iff.mpr ⟨child, mem, reached⟩)⟩
  · rintro ⟨own, rest⟩ k part reached
    cases k with
    | zero =>
      rw [reaches_zero_iff] at reached
      exact reached ▸ own
    | succ k =>
      obtain ⟨child, mem, reached⟩ := reaches_succ_iff.mp reached
      exact rest child mem k part reached

/-- What holds of a schema, and with every schema of those one level below, holds of all parts. -/
theorem Reaches.closed (holds : Value → Prop) (h : Reaches g part k schema) (start : holds schema)
    (closed : ∀ s, holds s → ∀ child ∈ (shape g s).below, holds child) : holds part := by
  induction k generalizing schema with
  | zero => exact reaches_zero_iff.mp h ▸ start
  | succ k ih =>
    obtain ⟨child, mem, h⟩ := reaches_succ_iff.mp h
    exact ih h (closed schema start child mem)

end Parts

section Choices

/-- Something stands first among choices: the first item of a list, the first character of a text,
the number of the first byte, or what a mapping has under zero. -/
inductive First (g : Graph) (choices : Value) : Value → Prop
  | item {v : Value} {rest : List Value} (h : choices.expose g = .list (v :: rest)) :
      First g choices v
  | character {s : String} {c : Char} {rest : List Char}
      (h : choices.expose g = .scalar (.text s)) (front : s.toList = c :: rest) :
      First g choices (.text (String.ofList [c]))
  | octet {b : UInt8} {rest : List UInt8} (h : choices.expose g = .scalar (.bytes (b :: rest))) :
      First g choices (.int b.toNat)
  | entry {entries : List (Scalar × Value)} {v : Value} (h : choices.expose g = .mapping entries)
      (found : Entries.get? (.int 0) entries = some v) : First g choices v

variable {choices : Value} {fault : Fault}

theorem first_eq_ok_iff : choices.first g = .ok v ↔ First g choices v := by
  constructor
  · intro h
    unfold Value.first at h
    split at h
    · next eq => cases h; exact .item eq
    · cases h
    · next s eq =>
      split at h
      · next front => cases h; exact .character eq front
      · cases h
    · next eq => cases h; exact .octet eq
    · cases h
    · next eq =>
      split at h
      · next found => cases h; exact .entry eq found
      · cases h
    · cases h
  · intro h
    cases h with
    | item eq => simp [Value.first, eq]
    | character eq front => simp [Value.first, eq, front]
    | octet eq => simp [Value.first, eq]
    | entry eq found => simp [Value.first, eq, found]

theorem textExample_eq_error_iff :
    textExample g choices = .error fault ↔
      choices.truthy = true ∧ choices.first g = .error fault := by
  unfold textExample
  split
  · next given => simp [given]
  · next given => simp [given]

/-- The fault that the walk meets at a shape. -/
def Shape.fault? (g : Graph) : Shape → Option Fault
  | .text choices =>
    match textExample g choices with
    | .ok _ => none
    | .error fault => some fault
  | _ => none

theorem fault?_text : (Shape.text choices).fault? g = some fault ↔
    textExample g choices = .error fault := by
  unfold Shape.fault?
  cases eq : textExample g choices <;> simp [eq]

theorem fault?_eq_some_iff :
    (shape g schema).fault? g = some fault ↔
      HasType g "string" schema ∧ (declaredChoices g schema).truthy = true ∧
        (declaredChoices g schema).first g = .error fault := by
  have shaped := shaped_shape g schema
  generalize shape g schema = s at shaped
  cases shaped with
  | text type => simp [fault?_text, textExample_eq_error_iff, type]
  | given h => simp [Shape.fault?, not_hasType_of_example h]
  | object type | emptyObject type | array type | emptyArray type | boolean type =>
    simp [Shape.fault?, type.iff]
  | number type => rcases type with type | type <;> simp [Shape.fault?, type.iff]
  | absent _ untyped | unknown _ untyped => simp [Shape.fault?, untyped "string" (by decide)]

end Choices

section Steps

variable {step : Step}

/-- The steps at a schema are its own fault, if it has one, and the steps one level below. -/
theorem mem_steps_succ_iff :
    step ∈ steps g maxDepth (left + 1) schema ↔
      (∃ fault, (shape g schema).fault? g = some fault ∧ step = .fail fault) ∨
        ∃ child ∈ (shape g schema).below, step ∈ steps g maxDepth left child := by
  rw [steps]
  cases shape g schema with
  | text choices => cases eq : textExample g choices <;> simp [Shape.fault?, Shape.below, eq]
  | object properties =>
    rw [List.mem_flatMap, Shape.below]
    refine ⟨fun ⟨p, mem, h⟩ => .inr ⟨p.2, List.mem_map_of_mem mem, h⟩, ?_⟩
    rintro (⟨fault, none, -⟩ | ⟨child, mem, h⟩)
    · cases none
    · obtain ⟨p, declared, rfl⟩ := List.mem_map.mp mem
      exact ⟨p, declared, h⟩
  | _ => simp [Shape.fault?, Shape.below]

/-- The walk meets the bound when a part lies on the first level beyond it, and a fault when a part
within the bound has one. -/
theorem mem_steps_iff :
    step ∈ steps g maxDepth left schema ↔
      (step = .record (cutoff maxDepth) ∧ ∃ part, Reaches g part left schema) ∨
        ∃ k part fault, Reaches g part k schema ∧ k < left ∧
          (shape g part).fault? g = some fault ∧ step = .fail fault := by
  induction left generalizing schema with
  | zero =>
    simp only [steps, List.mem_singleton, Nat.not_lt_zero, false_and, and_false, exists_false,
      or_false]
    exact ⟨fun h => ⟨h, schema, .self⟩, fun h => h.1⟩
  | succ left ih =>
    rw [mem_steps_succ_iff]
    constructor
    · rintro (⟨fault, own, rfl⟩ | ⟨child, mem, h⟩)
      · exact .inr ⟨0, schema, fault, .self, by omega, own, rfl⟩
      · rcases ih.mp h with ⟨rfl, part, reached⟩ | ⟨k, part, fault, reached, within, h⟩
        · exact .inl ⟨rfl, part, reaches_succ_iff.mpr ⟨child, mem, reached⟩⟩
        · exact .inr ⟨k + 1, part, fault, reaches_succ_iff.mpr ⟨child, mem, reached⟩, by omega, h⟩
    · rintro (⟨rfl, part, reached⟩ | ⟨k, part, fault, reached, within, h⟩)
      · obtain ⟨child, mem, reached⟩ := reaches_succ_iff.mp reached
        exact .inr ⟨child, mem, ih.mpr (.inl ⟨rfl, part, reached⟩)⟩
      · cases k with
        | zero =>
          rw [reaches_zero_iff] at reached
          exact .inl ⟨fault, reached ▸ h⟩
        | succ k =>
          obtain ⟨child, mem, reached⟩ := reaches_succ_iff.mp reached
          exact .inr ⟨child, mem, ih.mpr (.inr ⟨k, part, fault, reached, by omega, h⟩)⟩

end Steps

end RequestWriter.Schema
