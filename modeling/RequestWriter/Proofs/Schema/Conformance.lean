import RequestWriter.Proofs.Schema.Failure
import Mathlib.Data.List.Zip

/-!
# Examples conform to their schemas

What it means for a value to be an instance of a schema, at every level of both. The value that the
walk gives is one when every part of the schema is of a known kind and none lies beyond the bound;
the walk then meets nothing on its way.
-/

namespace RequestWriter.Schema

variable {g : Graph} {schema part : Value} {left : Nat} {maxDepth : Int}

/-- The value is an instance of the schema: equal to its example, or of its type. A text is one of
the listed choices if there are any; the items of an array are instances of the schema for items,
if there is one; an object has the declared properties in their order, each with an instance. -/
inductive Conforms (g : Graph) : Value → Value → Prop
  | given {schema v : Value} (h : keyword? g "example" schema = some v) : Conforms g schema v
  | text {schema : Value} {s : String} (type : HasType g "string" schema)
      (listed : ∀ words, keyword? g "enum" schema = some (.list words) → words ≠ [] →
        .text s ∈ words) :
      Conforms g schema (.text s)
  | whole {schema : Value} {i : Int}
      (type : HasType g "number" schema ∨ HasType g "integer" schema) : Conforms g schema (.int i)
  | float {schema : Value} {d : Double} (type : HasType g "number" schema) :
      Conforms g schema (.scalar (.float d))
  | boolean {schema : Value} {b : Bool} (type : HasType g "boolean" schema) :
      Conforms g schema (.bool b)
  | array {schema : Value} {items : List Value} (type : HasType g "array" schema)
      (each : ∀ declared, declaredItems? g schema = some declared →
        ∀ v ∈ items, Conforms g declared v) :
      Conforms g schema (.list items)
  | object {schema : Value} {entries : List (Scalar × Value)} (type : HasType g "object" schema)
      (keys : entries.map Prod.fst = (declaredProperties g schema).map Prod.fst)
      (each : ∀ pair ∈ (declaredProperties g schema).zip entries, Conforms g pair.1.2 pair.2.2) :
      Conforms g schema (.mapping entries)

/-- The schema has an example, or a known type; a text has no choices but a list of texts. -/
inductive Supported (g : Graph) (schema : Value) : Prop
  | given {v : Value} (h : keyword? g "example" schema = some v)
  | typed {name : String} (known : name ∈ typeNames) (type : HasType g name schema)
      (choices : name = "string" → ∀ v, keyword? g "enum" schema = some v →
        ∃ words : List String, v = .list (words.map .text))

theorem Supported.not_untyped (h : Supported g schema)
    (noExample : keyword? g "example" schema = none)
    (untyped : ∀ name ∈ typeNames, ¬HasType g name schema) : False := by
  cases h with
  | given h =>
    rw [noExample] at h
    cases h
  | typed known type => exact untyped _ known type

/-- The text that stands for a supported schema. -/
theorem textExample_of_supported (h : Supported g schema) (type : HasType g "string" schema) :
    ∃ s, textExample g (declaredChoices g schema) = .ok (.text s) ∧
      ∀ words, keyword? g "enum" schema = some (.list words) → words ≠ [] → .text s ∈ words := by
  cases h with
  | given h => exact absurd type (not_hasType_of_example h)
  | typed _ named choices =>
    have choices := choices ((type.iff _).mp named)
    unfold declaredChoices
    cases eq : keyword? g "enum" schema with
    | none => exact ⟨"string", rfl, fun words h => by cases h⟩
    | some v =>
      obtain ⟨words, rfl⟩ := choices v eq
      cases words with
      | nil =>
        refine ⟨"string", rfl, fun listed h some => ?_⟩
        cases h
        exact absurd rfl some
      | cons word words =>
        refine ⟨word, rfl, fun listed h _ => ?_⟩
        cases h
        exact List.mem_cons_self

theorem fault?_of_supported (h : Supported g schema) : (shape g schema).fault? g = none := by
  rw [Option.eq_none_iff_forall_ne_some]
  intro fault some
  obtain ⟨type, fails⟩ := fault?_eq_some_iff.mp some
  obtain ⟨s, eq, -⟩ := textExample_of_supported h type
  rw [textExample_eq_error_iff.mpr fails] at eq
  cases eq

/-- The walk over supported parts meets nothing as long as there are levels left. -/
theorem steps_of_supported (supported : ∀ k part, Reaches g part k schema → Supported g part)
    (nested : ∀ k part, Reaches g part k schema → k < left) :
    steps g maxDepth left schema = [] := by
  rw [List.eq_nil_iff_forall_not_mem]
  intro step mem
  rcases mem_steps_iff.mp mem with ⟨-, part, reached⟩ | ⟨k, part, fault, reached, -, some, -⟩
  · exact absurd (nested left part reached) (lt_irrefl left)
  · rw [fault?_of_supported (supported k part reached)] at some
    cases some

/-- The induction is on the levels that are left: what is reached from a property or from the items
is reached from the schema one level further down. -/
theorem conforms_sample (supported : ∀ k part, Reaches g part k schema → Supported g part)
    (nested : ∀ k part, Reaches g part k schema → k < left) :
    Conforms g schema (sample g left schema) := by
  induction left generalizing schema with
  | zero => exact absurd (nested 0 schema .self) (lt_irrefl 0)
  | succ left ih =>
    have own := supported 0 schema .self
    have shaped := shaped_shape g schema
    rw [sample]
    -- An instance is told by the keywords, so the cases are what they say and not the bare shapes.
    generalize shape g schema = s at shaped
    cases shaped with
    | given h => exact .given h
    | object type =>
      refine .object type (by simp) fun pair mem => ?_
      rw [← List.map_prod_left_eq_zip] at mem
      obtain ⟨entry, declared, rfl⟩ := List.mem_map.mp mem
      refine ih (fun k part h => ?_) fun k part h => ?_
      · exact supported (k + 1) part (.property type declared h)
      · exact Nat.lt_of_succ_lt_succ (nested (k + 1) part (.property type declared h))
    | emptyObject type none => exact .object type (by simp [none]) (by simp [none])
    | array type declared =>
      refine .array type fun items same => ?_
      rw [declared, Option.some.injEq] at same
      rw [List.forall_mem_singleton, ← same]
      refine ih (fun k part h => ?_) fun k part h => ?_
      · exact supported (k + 1) part (.items type declared h)
      · exact Nat.lt_of_succ_lt_succ (nested (k + 1) part (.items type declared h))
    | emptyArray type none =>
      refine .array type fun items some => ?_
      rw [none] at some
      cases some
    | text type =>
      obtain ⟨s, eq, listed⟩ := textExample_of_supported own type
      dsimp only
      rw [eq]
      exact .text type listed
    | number type => exact .whole type
    | boolean type => exact .boolean type
    | absent noExample untyped | unknown noExample untyped =>
      exact (own.not_untyped noExample untyped).elim

/-- A schema whose parts are all supported and lie within the bound has an instance for a value, and
the walk leaves no record. -/
theorem synthesizeAt_conforms {doc : Document} {maxDepth : Int}
    (supported : ∀ k part, Reaches doc.graph part k doc.root → Supported doc.graph part)
    (nested : ∀ k part, Reaches doc.graph part k doc.root → (k : Int) ≤ maxDepth) :
    ∃ v, synthesizeAt doc 0 maxDepth = pure v ∧ Conforms doc.graph doc.root v := by
  have nested : ∀ k part, Reaches doc.graph part k doc.root → k < levelsLeft 0 maxDepth := by
    intro k part reached
    rw [lt_levelsLeft_iff, Int.zero_add]
    exact nested k part reached
  refine ⟨_, ?_, conforms_sample supported nested⟩
  rw [synthesizeAt, steps_of_supported supported nested]
  rfl

/-- The kind of a pet, one of two words. -/
def petKind : Value :=
  .object [("type", .text "string"), ("enum", .list [.text "cat", .text "dog"])]

/-- A photo, shown by example. -/
def petPhoto : Value := .object [("type", .text "file"), ("example", .null)]

/-- A pet has a kind and a photo. -/
def pet : Value :=
  .object [("type", .text "object"),
    ("properties", .object [("kind", petKind), ("photo", petPhoto)])]

/-- A list of pets. -/
def pets : Value := .object [("type", .text "array"), ("items", pet)]

theorem reaches_pets :
    ∀ k part, Reaches [] part k pets → Supported [] part ∧ (k : Int) ≤ 2 := by
  have ofPets : (shape [] pets).below = [pet] := rfl
  have ofPet : (shape [] pet).below = [petKind, petPhoto] := rfl
  have ofKind : (shape [] petKind).below = [] := rfl
  have ofPhoto : (shape [] petPhoto).below = [] := rfl
  have list : Supported [] pets :=
    .typed (by decide) ⟨rfl, rfl⟩ fun text => absurd text (by decide)
  have object : Supported [] pet :=
    .typed (by decide) ⟨rfl, rfl⟩ fun text => absurd text (by decide)
  have listed : Supported [] petKind :=
    .typed (by decide) ⟨rfl, rfl⟩ fun _ v eq => ⟨["cat", "dog"], (Option.some.inj eq).symm⟩
  rw [forall_reaches_iff, ofPets, List.forall_mem_singleton, forall_reaches_iff, ofPet,
    List.forall_mem_cons, List.forall_mem_singleton, forall_reaches_iff, ofKind,
    forall_reaches_iff, ofPhoto]
  exact ⟨⟨list, by decide⟩, ⟨object, by decide⟩, ⟨⟨listed, by decide⟩, List.forall_mem_nil _⟩,
    ⟨.given rfl, by decide⟩, List.forall_mem_nil _⟩

/-- The conditions of `synthesizeAt_conforms` hold for `pets` with a bound of two levels, which its
properties just reach. -/
theorem pets_conform :
    (∀ k part, Reaches [] part k pets → Supported [] part ∧ (k : Int) ≤ 2) ∧
      synthesizeAt ⟨[], pets⟩ 0 2 =
        pure (.list [.object [("kind", .text "cat"), ("photo", .null)]]) ∧
      Conforms [] pets (.list [.object [("kind", .text "cat"), ("photo", .null)]]) := by
  have supported := fun k part reached => (reaches_pets k part reached).1
  have nested := fun k part reached => (reaches_pets k part reached).2
  obtain ⟨v, walk, conforms⟩ := @synthesizeAt_conforms ⟨[], pets⟩ 2 supported nested
  have same : synthesizeAt ⟨[], pets⟩ 0 2 =
      pure (.list [.object [("kind", .text "cat"), ("photo", .null)]]) := rfl
  rw [same] at walk
  injection walk with _ walk
  injection walk with walk
  exact ⟨reaches_pets, same, walk ▸ conforms⟩

end RequestWriter.Schema
