import RequestWriter.Proofs.Api.SharedDeclarations
import RequestWriter.Proofs.Entries
import Mathlib.Data.List.Nodup

/-!
# The parameters of an endpoint

The declarations that a path shares and those of an operation make one list, and the parameters of
the endpoint are read off that list: one for each name and location, at the place of its first
declaration and as its last one has it. Names and locations are told apart as they are written. A
document can write a word as a text or as bytes, and a parameter has a text for both, so two
parameters can look the same only where a document mixes the two.
-/

namespace RequestWriter

namespace Api

/-- A word as a document writes it: a text, or bytes. -/
inductive Word where
  | text (s : String)
  | bytes (b : List UInt8)
  deriving DecidableEq

namespace Word

/-- The word as a part of the document. -/
def scalar : Word → Scalar
  | text s => .text s
  | bytes b => .bytes b

/-- The text of the word: its own, or the one that its bytes encode. -/
def asText? (w : Word) : Option String := w.scalar.asText?

/-- The word that a part of a document is. -/
def of? : Value → Option Word
  | .scalar (.text s) => some (.text s)
  | .scalar (.bytes b) => some (.bytes b)
  | _ => none

theorem of?_scalar (w : Word) : of? (.scalar w.scalar) = some w := by
  cases w <;> rfl

theorem exact_scalar : (w : Word) → Entries.Exact w.scalar
  | text s => Scalar.exact_text s
  | bytes b => Scalar.exact_bytes b

theorem beq_scalar (v w : Word) : (v.scalar == w.scalar) = (v == w) := by
  rw [Bool.eq_iff_iff]
  constructor
  · intro h
    have same := (exact_scalar w _).1 h
    cases v <;> cases w <;> cases same <;> exact beq_self_eq_true _
  · intro h
    obtain rfl := eq_of_beq h
    cases v with
    | text s => exact beq_self_eq_true s
    | bytes b => exact beq_self_eq_true b

theorem exists_of_asText? {s : Scalar} {t : String} (h : s.asText? = some t) :
    ∃ w : Word, s = w.scalar := by
  cases s with
  | text s => exact ⟨.text s, rfl⟩
  | bytes b => exact ⟨.bytes b, rfl⟩
  | _ => cases h

end Word

/-- Name and location of a parameter as a document writes them. -/
structure ParameterKey where
  name : Word
  location : Word
  deriving DecidableEq

/-- The key by which declarations are told apart. -/
def ParameterKey.declared (key : ParameterKey) : DeclarationKey :=
  (key.name.scalar, key.location.scalar)

/-- The name, the location and the fields of the declaration of a parameter. A declaration that
gives no location is one in the query; one without a name or in the body declares no parameter. -/
def declared? (g : Graph) (v : Value) : Option (ParameterKey × Declaration) :=
  match v.expose g with
  | .mapping fields => do
    let name ← Entries.get? (.text "name") fields
    let name ← Word.of? (name.expose g)
    let location ← Word.of? (((Entries.get? (.text "in") fields).getD (.text "query")).expose g)
    if location = .text "body" then none else some (⟨name, location⟩, fields)
  | _ => none

/-- The parameter is that of a declaration under a name and a location. -/
structure IsParameter (g : Graph) (key : ParameterKey) (fields : Declaration) (p : Parameter) :
    Prop where
  name : key.name.asText? = some p.name
  location : key.location.asText? = some p.location
  /-- Where nothing is said, what is in the path is required and nothing else. -/
  required : (Entries.get? (.text "required") fields).elim
    (p.required = decide (key.location = .text "path"))
    fun v => Field.bool ["required"] v = .ok p.required
  /-- The type of the schema goes before that of the declaration. -/
  type : (((Entries.get? (.text "schema") fields).bind (Value.at? g "type")).or
    (Entries.get? (.text "type") fields)).elim (p.type = "string")
    fun v => Field.text ["param_type"] v = .ok p.type
  description : (Entries.get? (.text "description") fields).elim (p.description = "")
    fun v => Field.text ["description"] v = .ok p.description

/-- The parameters of a list of declarations: one for each name and location, in the order in which
these are declared first, and each as it is declared last. -/
def Merged (g : Graph) (items : List Value) (ps : List Parameter) : Prop :=
  let declarations := items.filterMap (declared? g)
  List.Forall₂ (fun key p => IsParameter g key (Entries.lastAssigned [] key declarations) p)
    (declarations.map Prod.fst).eraseDups ps

/-- Names and locations are all written as texts. -/
def WritesTexts (g : Graph) (items : List Value) : Prop :=
  ∀ d ∈ items.filterMap (declared? g), ∃ name location, d.1 = ⟨.text name, .text location⟩

/-- An operation and its path have these lists of declarations, where none is an empty one. -/
structure Operation.Declares (g : Graph) (o : Operation) (shared own : List Value) : Prop where
  shared : o.shared.expose g = .list shared
  own : ((o.value.at? g "parameters").getD (.list [])).expose g = .list own

variable {g : Graph} {doc : Document} {key : DeclarationKey} {fields : Declaration}
  {items shared own : List Value} {p : Parameter} {ps : List Parameter} {e : Endpoint}
  {es : List Endpoint}

theorem ParameterKey.beq_declared (a b : ParameterKey) :
    (a.declared == b.declared) = (a == b) := by
  change ((a.name.scalar == b.name.scalar) && (a.location.scalar == b.location.scalar)) = _
  rw [Word.beq_scalar, Word.beq_scalar, Bool.eq_iff_iff]
  obtain ⟨name, location⟩ := a
  obtain ⟨name', location'⟩ := b
  simp

/-- What counts as the key of a parameter is that key. -/
theorem ParameterKey.exact_declared (a : ParameterKey) : Entries.Exact a.declared := by
  intro x
  have split : ∀ x y : DeclarationKey, (x == y) = ((x.1 == y.1) && (x.2 == y.2)) := fun _ _ => rfl
  simp only [split, Bool.and_eq_true]
  refine ⟨fun h => Prod.ext ?_ ?_, fun h => Prod.ext ?_ ?_⟩
  · exact (a.name.exact_scalar _).1 h.1
  · exact (a.location.exact_scalar _).1 h.2
  · exact (a.name.exact_scalar _).2 h.1
  · exact (a.location.exact_scalar _).2 h.2

theorem inBody_iff : inBody key = true ↔ key.2 = .text "body" :=
  ⟨(Scalar.exact_text "body" key.2).1, fun h => by rw [inBody, h]; rfl⟩

/-- Keys that count as one are in the body together. -/
theorem inBody_congr (a b : DeclarationKey) (h : (a == b) = true) : inBody a = inBody b := by
  have second : (a.2 == b.2) = true := (Bool.and_eq_true_iff.mp h).2
  rw [Bool.eq_iff_iff, inBody_iff, inBody_iff]
  constructor
  · intro body
    rw [body] at second
    exact (Scalar.exact_text "body" b.2).2 second
  · intro body
    rw [body] at second
    exact (Scalar.exact_text "body" a.2).1 second

theorem asKey_eq_ok_iff {v : Value} {s : Scalar} : asKey g v = .ok s ↔ v.expose g = .scalar s := by
  unfold asKey
  cases v.expose g <;> simp

/-- The name and the location of a declaration whose fields these are. -/
def HasKey (g : Graph) (v : Value) (key : DeclarationKey) (fields : Declaration) : Prop :=
  v.expose g = .mapping fields ∧
    (∃ name, Entries.get? (.text "name") fields = some name ∧ name.expose g = .scalar key.1) ∧
    ((Entries.get? (.text "in") fields).getD (.text "query")).expose g = .scalar key.2

/-- A declaration that can be read has a name and a location, or declares no parameter. -/
theorem declaration?_eq_ok {v : Value} {d : Option (DeclarationKey × Declaration)}
    (h : declaration? g v = .ok d) :
    d.elim (declared? g v = none) fun d => HasKey g v d.1 d.2 := by
  obtain ⟨named, mentions, rest⟩ := Chain.bind_eq_ok_iff.mp h
  cases shape : v.expose g with
  | mapping fields =>
    rw [Value.mentions, shape] at mentions
    obtain rfl : Entries.has (.text "name") fields = named := Except.ok.inj mentions
    rw [Entries.has] at rest
    cases found : Entries.get? (.text "name") fields with
    | none =>
      rw [found] at rest
      obtain rfl : none = d := Except.ok.inj rest
      rw [Option.elim_none, declared?, shape]
      dsimp only
      rw [found]
      rfl
    | some name =>
      rw [found, Option.isSome_some, if_pos rfl, Value.mentioned, shape] at rest
      dsimp only at rest
      rw [found] at rest
      simp only [Chain.bind_eq_ok_iff, Value.entries_eq_ok_iff.mpr shape, asKey_eq_ok_iff] at rest
      obtain ⟨_, ⟨⟩, _, ⟨⟩, name, isName, location, isLocation, ⟨⟩⟩ := rest
      exact ⟨shape, ⟨_, found, isName⟩, isLocation⟩
  | _ =>
    cases named with
    | false =>
      obtain rfl : none = d := Except.ok.inj rest
      rw [Option.elim_none, declared?, shape]
    | true =>
      rw [if_pos rfl, Value.mentioned, shape] at rest
      cases rest

/-- A declaration under a key that is written in words is that of a parameter. -/
theorem HasKey.declared?_eq_some {v : Value} {key : ParameterKey}
    (h : HasKey g v key.declared fields) (notBody : ¬inBody key.declared = true) :
    declared? g v = some (key, fields) := by
  obtain ⟨shape, ⟨name, found, isName⟩, isLocation⟩ := h
  have named : Word.of? (name.expose g) = some key.name := by
    rw [isName]
    exact Word.of?_scalar _
  have located : Word.of? (((Entries.get? (.text "in") fields).getD (.text "query")).expose g) =
      some key.location := by
    rw [isLocation]
    exact Word.of?_scalar _
  have elsewhere : key.location ≠ .text "body" := fun body =>
    notBody (inBody_iff.mpr (congrArg Word.scalar body))
  rw [declared?, shape]
  dsimp only
  rw [found, located]
  dsimp only [bind, Option.bind]
  rw [named]
  exact if_neg elsewhere

theorem HasKey.declared?_eq_none {v : Value} (h : HasKey g v key fields)
    (body : inBody key = true) : declared? g v = none := by
  obtain ⟨shape, ⟨name, found, isName⟩, isLocation⟩ := h
  rw [inBody_iff] at body
  rw [declared?, shape]
  dsimp only
  rw [found, isLocation, body]
  dsimp only [bind, Option.bind]
  cases Word.of? (name.expose g) <;> rfl

/-- The type that is read of a declaration. -/
theorem declaredType_eq_ok {type : Value} (h : declaredType g fields = .ok type) :
    type = (((Entries.get? (.text "schema") fields).bind (Value.at? g "type")).or
      (Entries.get? (.text "type") fields)).getD (.text "string") := by
  rw [Value.eq_of_lookupD h, Option.getD_or]
  cases Entries.get? (.text "schema") fields <;> rfl

/-- A parameter that is made of a declaration has a name and a location that are words. -/
theorem parameter_eq_ok (h : parameter g (key, fields) = .ok p) :
    ∃ k : ParameterKey, k.declared = key ∧ IsParameter g k fields p := by
  obtain ⟨name, location⟩ := key
  obtain ⟨type, isType, made⟩ := Chain.bind_eq_ok_iff.mp h
  have type_eq := declaredType_eq_ok isType
  rw [Parameter.ofFields, Checked.toExcept_eq_ok_iff] at made
  simp only [Parameter.check, Checked.seq_eq_ok_iff, Checked.map_eq_ok_iff] at made
  obtain ⟨_, description, ⟨_, type', ⟨_, required, ⟨_, location', ⟨name', isName, rfl⟩,
    isLocation, rfl⟩, isRequired, rfl⟩, typed, rfl⟩, described, rfl⟩ := made
  replace isName : Field.text ["name"] (.scalar name) = .ok name' := isName
  replace isLocation : Field.text ["location"] (.scalar location) = .ok location' := isLocation
  rw [Field.text_eq_ok_iff] at isName isLocation
  obtain ⟨name, rfl⟩ := Word.exists_of_asText? isName
  obtain ⟨location, rfl⟩ := Word.exists_of_asText? isLocation
  refine ⟨⟨name, location⟩, rfl, isName, isLocation, ?_, ?_, ?_⟩
  · replace isRequired : Field.bool ["required"] ((Entries.get? (.text "required") fields).getD
      (Value.bool (location.scalar == .text "path"))) = .ok required := isRequired
    cases given : Entries.get? (.text "required") fields with
    | none =>
      rw [given] at isRequired
      rw [Option.elim_none, ← Checked.ok.inj isRequired]
      exact Word.beq_scalar location (.text "path")
    | some v =>
      rw [given] at isRequired
      exact isRequired
  · replace typed : Field.text ["param_type"] type = .ok type' := typed
    rw [type_eq] at typed
    generalize ((Entries.get? (.text "schema") fields).bind (Value.at? g "type")).or
      (Entries.get? (.text "type") fields) = given at typed
    cases given with
    | none => exact (Checked.ok.inj typed).symm
    | some v => exact typed
  · replace described : Field.text ["description"] ((Entries.get? (.text "description") fields).getD
      (.text "")) = .ok description := described
    cases given : Entries.get? (.text "description") fields with
    | none =>
      rw [given] at described
      exact (Checked.ok.inj described).symm
    | some v =>
      rw [given] at described
      exact described

/-- Declarations under keys that are written in words are read as those of parameters. -/
theorem filterMap_declared? {declared : List (Option (DeclarationKey × Declaration))}
    (h : List.Forall₂ (fun v d => declaration? g v = .ok d) items declared)
    (words : ∀ d ∈ (declared.filterMap id).filter fun d => !inBody d.1,
      ∃ key : ParameterKey, key.declared = d.1) :
    (declared.filterMap id).filter (fun d => !inBody d.1) =
      (items.filterMap (declared? g)).map (Prod.map ParameterKey.declared id) := by
  induction h with
  | nil => rfl
  | @cons v d items declared first _ ih =>
    have read := declaration?_eq_ok first
    cases d with
    | none =>
      rw [Option.elim_none] at read
      rw [List.filterMap_cons_none read]
      exact ih words
    | some d =>
      rw [Option.elim_some] at read
      have found : (some d :: declared).filterMap id = d :: declared.filterMap id := rfl
      rw [found] at words ⊢
      by_cases body : inBody d.1 = true
      · rw [List.filter_cons_of_neg (by simp [body])] at words ⊢
        rw [List.filterMap_cons_none (read.declared?_eq_none body)]
        exact ih words
      · rw [List.filter_cons_of_pos (by simp [body])] at words ⊢
        obtain ⟨here, others⟩ := List.forall_mem_cons.mp words
        obtain ⟨key, isKey⟩ := here
        obtain ⟨_, fields⟩ := d
        obtain rfl := isKey
        rw [List.filterMap_cons_some (read.declared?_eq_some body), ih others]
        rfl

/-- The parameters that are made of a list of declarations are those of its names and locations. -/
theorem merged_of_parametersOf (h : parametersOf g items = .ok ps) : Merged g items ps := by
  obtain ⟨declared, each, made⟩ := Chain.bind_eq_ok_iff.mp h
  rw [Chain.mapM_eq_ok_iff] at each made
  have congr : ∀ a b : DeclarationKey, (a == b) = true → (!inBody a) = !inBody b :=
    fun a b same => congrArg _ (inBody_congr a b same)
  rw [merge, Entries.filter_ofPairs congr] at made
  -- A key that is left after the assignments is made of words, so each key that was assigned is.
  have left : ∀ d ∈ Entries.ofPairs ((declared.filterMap id).filter fun d => !inBody d.1),
      ∃ key : ParameterKey, key.declared = d.1 :=
    ((List.forall₂_and_left _ _).mp (made.imp fun _ _ isMade =>
      ⟨(parameter_eq_ok isMade).imp fun _ made => made.1, isMade⟩)).1
  have words : ∀ d ∈ (declared.filterMap id).filter fun d => !inBody d.1,
      ∃ key : ParameterKey, key.declared = d.1 := by
    intro d mem
    obtain ⟨_, isKept, same⟩ := Entries.exists_key_ofPairs mem
    obtain ⟨entry, isLeft, rfl⟩ := List.mem_map.mp isKept
    obtain ⟨key, isKey⟩ := left entry isLeft
    rw [← isKey] at same
    exact ⟨key, same.elim id fun same => ((key.exact_declared _).2 same).symm⟩
  rw [filterMap_declared? each words, Entries.ofPairs_map_key ParameterKey.beq_declared,
    Entries.ofPairs_eq_map [], List.forall₂_map_left_iff, List.forall₂_map_left_iff] at made
  refine made.imp fun key p isMade => ?_
  obtain ⟨k, same, isParameter⟩ := parameter_eq_ok isMade
  have : (k == key) = true := by
    rw [← ParameterKey.beq_declared, same, ParameterKey.beq_declared]
    exact beq_self_eq_true key
  exact eq_of_beq this ▸ isParameter

theorem location_ne_body {v : Value} {d : ParameterKey × Declaration}
    (h : declared? g v = some d) : d.1.location ≠ .text "body" := by
  rw [declared?] at h
  split at h
  · obtain ⟨name, -, h⟩ := Option.bind_eq_some_iff.mp h
    obtain ⟨word, -, h⟩ := Option.bind_eq_some_iff.mp h
    obtain ⟨location, -, h⟩ := Option.bind_eq_some_iff.mp h
    split at h
    · cases h
    · next elsewhere =>
      obtain rfl := Option.some.inj h
      exact elsewhere
  · cases h

/-- Where names and locations are texts, no two parameters have the same ones, and none is in the
body. -/
theorem Merged.nodup (h : Merged g items ps) (texts : WritesTexts g items) :
    (ps.map fun p => (p.name, p.location)).Nodup ∧ ∀ p ∈ ps, p.location ≠ "body" := by
  let written (pair : String × String) : ParameterKey := ⟨.text pair.1, .text pair.2⟩
  let keys := ((items.filterMap (declared? g)).map Prod.fst).eraseDups
  have elsewhere : ∀ key ∈ keys, (∃ name location, key = ⟨.text name, .text location⟩) ∧
      key.location ≠ .text "body" := by
    intro key mem
    obtain ⟨d, isDeclared, rfl⟩ := List.mem_map.mp (List.mem_eraseDups.mp mem)
    obtain ⟨v, -, declares⟩ := List.mem_filterMap.mp isDeclared
    exact ⟨texts d isDeclared, location_ne_body declares⟩
  have own : List.Forall₂ (fun key p => key = written (p.name, p.location)) keys ps := by
    refine ((List.forall₂_and_left _ _).mpr ⟨elsewhere, h⟩).imp ?_
    rintro _ p ⟨⟨⟨name, location, rfl⟩, -⟩, isParameter⟩
    rw [← Option.some.inj isParameter.name, ← Option.some.inj isParameter.location]
  have keys_eq : keys = (ps.map fun p => (p.name, p.location)).map written := by
    rw [List.map_map]
    exact List.forall₂_eq_eq_eq ▸ List.forall₂_map_right_iff.mpr own
  have once : keys.Nodup := Entries.nodup_eraseDups _
  refine ⟨List.Nodup.of_map written (keys_eq ▸ once), fun p mem body => ?_⟩
  refine (elsewhere (written (p.name, p.location)) ?_).2 (congrArg Word.text body)
  rw [keys_eq]
  exact List.mem_map_of_mem (List.mem_map_of_mem mem)

/-- The parameters of the endpoints of a document are those that its operations declare: one for
each name and location of the declarations of the path and of the operation, in the order in which
they are declared first, and each as it is declared last. -/
theorem parameters_merged (h : (endpoints doc).result = .ok es) :
    List.Forall₂ (fun o e => ∀ shared own, o.Declares doc.graph shared own →
        Merged doc.graph (shared ++ own) e.parameters ∧
          (WritesTexts doc.graph (shared ++ own) →
            (e.parameters.map fun p => (p.name, p.location)).Nodup ∧
              ∀ p ∈ e.parameters, p.location ≠ "body"))
      (operations doc) es := by
  refine (give_endpoints h).imp fun o e gives shared own declares => ?_
  obtain ⟨found, items, looked, both, made⟩ := (endpoint_eq_ok_iff.mp gives).parameters
  rw [Value.partsOfBoth, declares.shared, Value.eq_of_lookupD looked, declares.own] at both
  obtain rfl := Except.ok.inj both
  have merged := merged_of_parametersOf made
  exact ⟨merged, merged.nodup⟩

/-- What the operations of a path share: a part of the path, a page, something without a name, and a
body. -/
def sharedByPets : List Value :=
  [.object [("name", .text "id"), ("in", .text "path")], .object [("name", .text "page")],
    .object [("in", .text "query")], bodyDeclaration]

/-- What one of them declares: the page once more, and a header with the name of the part of the
path. -/
def ownOfPets : List Value :=
  [.object [("name", .text "id"), ("in", .text "header"),
      ("schema", .object [("type", .text "uuid")])],
    .object [("name", .text "page"), ("in", .text "query"), ("type", .text "integer"),
      ("required", .bool true)]]

/-- A document with one operation that declares parameters over those of its path. -/
def overriding : Document :=
  ⟨[], .object [("swagger", .text "2.0"), ("paths", .object [("/pets/\x7bid\x7d", .object
    [("parameters", .list sharedByPets),
      ("get", .object [("parameters", .list ownOfPets)])])])]⟩

/-- The condition of `parameters_merged` holds for `overriding`: the page of the operation stands at
the place of that of the path. -/
theorem overriding_merged : ∃ e, (endpoints overriding).result = .ok [e] ∧
    Merged [] (sharedByPets ++ ownOfPets) e.parameters ∧
    e.parameters = [⟨"id", "path", true, "string", ""⟩, ⟨"page", "query", true, "integer", ""⟩,
      ⟨"id", "header", false, "uuid", ""⟩] := by
  refine ⟨_, rfl, ?_, rfl⟩
  obtain _ | ⟨first, -⟩ := @parameters_merged overriding _ rfl
  exact (first _ _ ⟨rfl, rfl⟩).1

/-- A document that declares a parameter once by its text and once by its bytes. -/
def spelledTwice : Document :=
  ⟨[], .object [("openapi", .text "3.0.0"), ("paths", .object [("/pets", .object
    [("parameters", .list [.object [("name", .text "page")]]),
      ("get", .object [("parameters", .list
        [.object [("name", .scalar (.bytes [0x70, 0x61, 0x67, 0x65]))]])])])])]⟩

/-- Names that are written differently are different names, although a parameter has a text for
each: `spelledTwice` has two parameters with one name and location. -/
theorem spelledTwice_repeats :
    ¬∀ (doc : Document) (es : List Endpoint), (endpoints doc).result = .ok es →
      ∀ e ∈ es, (e.parameters.map fun p => (p.name, p.location)).Nodup := by
  intro claim
  have once : [("page", "query"), ("page", "query")].Nodup :=
    claim spelledTwice _ rfl _ List.mem_cons_self
  exact absurd once (by decide)

end Api

end RequestWriter
