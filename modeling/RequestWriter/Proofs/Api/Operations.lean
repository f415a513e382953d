import RequestWriter.Proofs.Chain
import RequestWriter.Api.Operations

/-!
# Operations and endpoints

The operations that a document writes down, read off the document alone: the keys of its paths that
are a method in capitals. When the document is read, each of them gives one endpoint, in the order
of the document, and nothing else does. So a search among the endpoints is a search among the
operations.
-/

namespace RequestWriter

/-- The text that a key stands for where a text is wanted: its own, or the one that its bytes
encode. -/
def Scalar.asText? : Scalar → Option String
  | .text s => some s
  | .bytes b => Text.ofUtf8? b
  | _ => none

theorem Field.text_eq_ok_iff {place : List String} {s : Scalar} {t : String} :
    Field.text place (.scalar s) = .ok t ↔ s.asText? = some t := by
  cases s with
  | text s => simp [Field.text, Scalar.asText?]
  | bytes b => cases eq : Text.ofUtf8? b <;> simp [Field.text, Scalar.asText?, eq, Checked.issue]
  | _ => simp [Field.text, Scalar.asText?, Checked.issue]

namespace Endpoint

variable {g : Graph} {d : Draft} {e : Endpoint}

/-- What is known of an endpoint whose fields were checked. -/
theorem ofDraft_eq_ok_iff :
    ofDraft g d = .ok e ↔ ∃ path summary body tags,
      Field.text ["path"] (.scalar d.path) = .ok path ∧
      Field.text ["summary"] d.summary = .ok summary ∧
      Field.mappingOrNull ["request_body"] (d.requestBody.expose g) = .ok body ∧
      Field.list Field.text ["tags"] (d.tags.expose g) = .ok tags ∧
      e = ⟨d.method, path, summary, d.parameters, Option.map Value.mapping body, d.responses, tags,
        d.contentType⟩ := by
  simp only [ofDraft, check, Checked.toExcept_eq_ok_iff, Checked.seq_eq_ok_iff,
    Checked.map_eq_ok_iff]
  constructor
  · rintro ⟨_, tags, ⟨_, body, ⟨_, summary, ⟨path, hp, rfl⟩, hs, rfl⟩, hb, rfl⟩, ht, rfl⟩
    exact ⟨path, summary, body, tags, hp, hs, hb, ht, rfl⟩
  · rintro ⟨path, summary, body, tags, hp, hs, hb, ht, rfl⟩
    exact ⟨_, tags, ⟨_, body, ⟨_, summary, ⟨path, hp, rfl⟩, hs, rfl⟩, hb, rfl⟩, ht, rfl⟩

end Endpoint

namespace Api

/-- An operation as a document writes it down. -/
structure Operation where
  path : Scalar
  /-- The declarations that the operations of the path share. -/
  shared : Value
  key : String
  /-- What stands under the key. -/
  value : Value

/-- The method of an operation. -/
def Operation.method (o : Operation) : String := Text.upper o.key

/-- Whether the operation is on a path and its key is a method, both in any spelling. -/
def Operation.isAt (method path : String) (o : Operation) : Bool :=
  o.method == Text.upper method && o.path.asText? == some path

/-- The operation under a key of a path, if the key is one of the five methods in capitals. -/
def operation? (path : Scalar) (shared : Value) : Scalar × Value → Option Operation
  | (.text key, value) => if Text.upper key ∈ methods then some ⟨path, shared, key, value⟩ else none
  | _ => none

/-- The operations of a path in the order of its keys. -/
def operationsOfPath (g : Graph) (path : Scalar × Value) : List Operation :=
  match path.2.expose g with
  | .mapping entries =>
    let shared := (Entries.get? (.text "parameters") entries).getD (.list [])
    entries.filterMap (operation? path.1 shared)
  | _ => []

/-- The operations of some paths, path by path. -/
def operationsOfPaths (g : Graph) (paths : Value) : List Operation :=
  match paths.expose g with
  | .mapping entries => entries.flatMap (operationsOfPath g)
  | _ => []

/-- The operations of a document. -/
def operations (doc : Document) : List Operation :=
  operationsOfPaths doc.graph (((doc.root.expose doc.graph).get? "paths").getD .null)

/-- The endpoint is read from the operation. -/
def Operation.Gives (g : Graph) (o : Operation) (e : Endpoint) : Prop :=
  endpoint g o.path o.shared o.method o.value = .ok e

variable {g : Graph} {doc : Document} {path : Scalar} {shared operation : Value} {method : String}
  {e : Endpoint} {es : List Endpoint}

/-- An endpoint has the method of its operation, and the path as a text. -/
theorem endpoint_key (h : endpoint g path shared method operation = .ok e) :
    e.method = method ∧ path.asText? = some e.path := by
  simp only [endpoint, Chain.bind_eq_ok_iff, Endpoint.ofDraft_eq_ok_iff] at h
  obtain ⟨_, -, _, -, _, -, _, -, _, -, _, -, _, -, _, -, text, _, _, _, isText, -, -, -, rfl⟩ := h
  exact ⟨rfl, Field.text_eq_ok_iff.mp isText⟩

/-- A key gives an endpoint exactly when it is an operation. -/
theorem gives_endpoint? {entry : Scalar × Value} {found : Option Endpoint}
    (h : endpoint? g path shared entry = .ok found) :
    Option.Rel (Operation.Gives g) (operation? path shared entry) found := by
  obtain ⟨key, operation⟩ := entry
  obtain ⟨method, known, rest⟩ := Chain.bind_eq_ok_iff.mp h
  cases key with
  | text s =>
    cases known
    by_cases member : Text.upper s ∈ methods
    · rw [if_pos (List.contains_iff_mem.mpr member)] at rest
      obtain ⟨e, gives, rfl⟩ := Chain.map_eq_ok_iff.mp rest
      rw [operation?, if_pos member]
      exact .some gives
    · rw [if_neg (mt List.contains_iff_mem.mp member)] at rest
      cases rest
      rw [operation?, if_neg member]
      exact .none
  | bytes b =>
    cases known
    cases rest
    exact .none
  | _ => cases known

theorem give_endpointsOfPath {path : Scalar × Value} (h : endpointsOfPath g path = .ok es) :
    List.Forall₂ (Operation.Gives g) (operationsOfPath g path) es := by
  simp only [endpointsOfPath, Chain.bind_eq_ok_iff, Chain.mapM_eq_ok_iff] at h
  obtain ⟨shared, declared, entries, mapping, found, each, ⟨⟩⟩ := h
  rw [Value.entries_eq_ok_iff] at mapping
  rw [Value.lookupD_of_mapping mapping, Except.ok.injEq] at declared
  rw [operationsOfPath, mapping]
  dsimp only
  rw [declared]
  exact List.rel_filterMap (fun _ _ gives => gives) (each.imp fun _ _ => gives_endpoint?)

theorem operationsOfPaths_eq_nil {paths : Value} (h : paths.truthy = false) :
    operationsOfPaths g paths = [] := by
  cases paths with
  | mapping entries =>
    have none : entries = [] := by simpa [Value.truthy] using h
    rw [none]
    rfl
  | ref => cases h
  | scalar | list => rfl

theorem give_endpointsOfPaths {paths : Value} (h : endpointsOfPaths g paths = .ok es) :
    List.Forall₂ (Operation.Gives g) (operationsOfPaths g paths) es := by
  unfold endpointsOfPaths at h
  split at h
  · simp only [Chain.bind_eq_ok_iff, Chain.map_eq_ok_iff, Chain.mapM_eq_ok_iff] at h
    obtain ⟨entries, mapping, found, each, rfl⟩ := h
    rw [operationsOfPaths, Value.entries_eq_ok_iff.mp mapping]
    dsimp only
    rw [List.flatMap_def]
    refine List.rel_flatten (List.forall₂_map_left_iff.mpr ?_)
    exact each.imp fun _ _ => give_endpointsOfPath
  · next absent =>
    cases h
    rw [operationsOfPaths_eq_nil (by simpa using absent)]
    exact .nil

/-- The endpoints of a document are those of its operations, one for each and in their order. -/
theorem give_endpoints (h : (endpoints doc).result = .ok es) :
    List.Forall₂ (Operation.Gives doc.graph) (operations doc) es := by
  simp only [endpoints, Logged.result_bind, Logged.result_liftM, Chain.bind_eq_ok_iff] at h
  obtain ⟨paths, read, found, each, _, -, ⟨⟩⟩ := h
  obtain ⟨value, found, rfl⟩ := Chain.map_eq_ok_iff.mp read
  obtain ⟨entries, mapping, rfl⟩ := Chain.map_eq_ok_iff.mp found
  rw [operations, Value.entries_eq_ok_iff.mp mapping]
  exact give_endpointsOfPaths each

/-- A search among things that belong to others one by one finds what belongs to the first other one
that is looked for. -/
theorem find?_eq_of_forall₂ {α β : Type} {belongs : α → β → Prop} {p : α → Bool} {q : β → Bool}
    (same : ∀ a b, belongs a b → p a = q b) {as : List α} {bs : List β}
    (h : List.Forall₂ belongs as bs) : bs.find? q = (as.findIdx? p).bind (bs[·]?) := by
  induction h with
  | nil => rfl
  | cons first rest ih =>
    rw [List.find?_cons, List.findIdx?_cons, same _ _ first]
    cases q _ with
    | true => rfl
    | false =>
      dsimp only
      rw [ih, if_neg Bool.false_ne_true, Option.bind_map]
      rfl

theorem Operation.isAt_iff {method path : String} {o : Operation} :
    o.isAt method path = true ↔ o.method = Text.upper method ∧ o.path.asText? = some path := by
  simp [isAt]

/-- The endpoint of an operation answers where the operation is. -/
theorem Operation.Gives.isAt_eq {o : Operation} (h : o.Gives g e) (method path : String) :
    o.isAt method path = e.answers (Text.upper method) path := by
  obtain ⟨sameMethod, samePath⟩ := endpoint_key h
  rw [isAt, Endpoint.answers, sameMethod, samePath, Option.some_beq_some]

/-- A document that can be read has one endpoint for each of its operations, in their order, with
the method of the operation and the text of its path. The search for a method on a path finds the
endpoint of the first operation that is there, and nothing exactly when there is none. -/
theorem endpoints_found (h : (endpoints doc).result = .ok es) :
    List.Forall₂ (fun o e => o.Gives doc.graph e ∧ e.method = o.method ∧
        o.path.asText? = some e.path) (operations doc) es ∧
      ∀ method path : String,
        Endpoint.find? es method path =
            ((operations doc).findIdx? (Operation.isAt method path)).bind (es[·]?) ∧
          (Endpoint.find? es method path = none ↔
            ∀ o ∈ operations doc,
              ¬(o.method = Text.upper method ∧ o.path.asText? = some path)) := by
  have gives := give_endpoints h
  refine ⟨gives.imp fun o e own => ⟨own, endpoint_key own⟩, fun method path => ?_⟩
  have found : Endpoint.find? es method path =
      ((operations doc).findIdx? (Operation.isAt method path)).bind (es[·]?) :=
    find?_eq_of_forall₂ (fun o e own => own.isAt_eq method path) gives
  refine ⟨found, ?_⟩
  simp only [← Operation.isAt_iff, Bool.not_eq_true]
  rw [found, ← List.findIdx?_eq_none_iff, Option.bind_eq_none_iff]
  refine ⟨fun none => ?_, fun none i some => ?_⟩
  · cases place : (operations doc).findIdx? (Operation.isAt method path) with
    | none => rfl
    | some i =>
      -- There are as many endpoints as operations, so a place that is found is not beyond the last.
      obtain ⟨inside, -⟩ := List.findIdx?_eq_some_iff_getElem.mp place
      rw [gives.length_eq] at inside
      exact absurd (none i place) (by simp [inside])
  · rw [none] at some
    cases some

/-- A document with keys that are the same method in capitals, and keys that are none. -/
def store : Document :=
  ⟨[], .object [("swagger", .text "2.0"), ("paths", .object
    [("/pets", .object [("summary", .text "Pets"), ("Get", .object []),
        ("get", .object [("summary", .text "again")]), ("poſt", .object [])]),
      ("/", .object [("trace", .object []), ("parameters", .list [])])])]⟩

/-- The condition of `endpoints_found` holds for `store`, whose second key for a method is never
found. -/
theorem store_found : ∃ es, (endpoints store).result = .ok es ∧
    (operations store).map Operation.key = ["Get", "get", "poſt"] ∧
    es.map Endpoint.method = ["GET", "GET", "POST"] ∧
    Endpoint.find? es "get" "/pets" = es[0]? ∧ Endpoint.find? es "post" "/pets" = es[2]? ∧
    Endpoint.find? es "get" "/" = none := by
  refine ⟨_, rfl, rfl, rfl, ?_, ?_, ?_⟩
  · rw [((@endpoints_found store _ rfl).2 "get" "/pets").1]
    rfl
  · rw [((@endpoints_found store _ rfl).2 "post" "/pets").1]
    rfl
  · rw [((@endpoints_found store _ rfl).2 "get" "/").1]
    rfl

/-- A document with a path whose key is written as bytes. -/
def encoded : Document :=
  ⟨[], .object [("openapi", .text "3.0.0"), ("paths", .mapping
    [(.bytes [0x2F, 0x70, 0x65, 0x74, 0x73], .object [("get", .object [])])])]⟩

/-- A search for a text finds an endpoint although no key of the paths is that text: the key of
`encoded` is its bytes. -/
theorem encoded_path_found :
    ¬∀ (doc : Document) (es : List Endpoint), (endpoints doc).result = .ok es →
      ∀ method path : String, Endpoint.find? es method path = none ↔
        ∀ o ∈ operations doc, ¬(o.method = Text.upper method ∧ o.path = .text path) := by
  intro claim
  have none := (claim encoded _ rfl "GET" "/pets").mpr
  have only : operations encoded =
      [⟨.bytes [0x2F, 0x70, 0x65, 0x74, 0x73], .list [], "get", .object []⟩] := rfl
  rw [only, List.forall_mem_singleton] at none
  cases none fun there => nomatch there.2

end Api

end RequestWriter
