import RequestWriter.Proofs.Api.Operations
import RequestWriter.Proofs.Entries

/-!
# Which schemas an endpoint keeps

A content may have a schema under each of its media types, and an endpoint has room for one. What it
keeps is decided by one entry of the content: for a request that of the preferred media type, for a
response the first one. The media type that the endpoint names is chosen apart from its schema, so
the two need not belong together; and where the entry that decides has no schema, those of the
others are lost.

Everything here is read off the document, with references replaced, so that what a content declares
is said without the functions that read it.
-/

namespace RequestWriter

namespace Value

/-- What stands under a text key of a mapping. -/
def at? (g : Graph) (key : String) (v : Value) : Option Value := (v.expose g).get? key

/-- The value unless it is null. -/
def present? (v : Value) : Option Value := if v.isNull then none else some v

variable {g : Graph} {v w : Value} {key : String}

theorem at?_of_mapping {entries : List (Scalar × Value)} (h : v.expose g = .mapping entries) :
    v.at? g key = Entries.get? (.text key) entries := by
  rw [at?, h]
  rfl

/-- A value that is looked up is what stands there, or the default. -/
theorem eq_of_lookupD {default : Value} (h : v.lookupD g key default = .ok w) :
    w = (v.at? g key).getD default := by
  obtain ⟨found, looked, rfl⟩ := Chain.map_eq_ok_iff.mp h
  obtain ⟨entries, mapping, rfl⟩ := Chain.map_eq_ok_iff.mp looked
  rw [at?_of_mapping (entries_eq_ok_iff.mp mapping)]

theorem present?_lookupD (h : v.lookupD g key null = .ok w) :
    (w.expose g).present? = (v.at? g key).bind fun found => (found.expose g).present? := by
  rw [eq_of_lookupD h]
  cases v.at? g key <;> rfl

end Value

theorem Field.mappingOrNull_eq_ok_iff {place : List String} {v : Value}
    {body : Option (List (Scalar × Value))} :
    Field.mappingOrNull place v = .ok body ↔ v.present? = body.map Value.mapping := by
  unfold Field.mappingOrNull Value.present?
  split
  · cases body <;> simp
  · rw [Checked.map_eq_ok_iff]
    cases v with
    | mapping entries =>
      constructor
      · rintro ⟨_, ⟨⟩, rfl⟩
        rfl
      · intro same
        cases body with
        | none => cases same
        | some body =>
          cases same
          exact ⟨entries, rfl, rfl⟩
    | _ => cases body <;> simp [Field.mapping, Checked.issue]

namespace Api

/-- The schema that a media type, a declaration or a response has. Null is none. -/
def schema? (g : Graph) (v : Value) : Option Value :=
  (v.at? g "schema").bind fun schema => (schema.expose g).present?

/-- A mapping is the content of the request body of the operation. -/
def Operation.HasContent (g : Graph) (o : Operation) (content : List (Scalar × Value)) : Prop :=
  ∃ body found, o.value.at? g "requestBody" = some body ∧ body.at? g "content" = some found ∧
    found.expose g = .mapping content

/-- The media type of a content that decides which schema is kept: the first of some preferred ones
that is there, or else the first one. -/
def deciding? (preferred : List String) (content : List (Scalar × Value)) : Option Value :=
  (preferred.findSome? fun type => Entries.get? (.text type) content).or
    (content.head?.map Prod.snd)

/-- The media type that decides for a request. -/
def requested? (content : List (Scalar × Value)) : Option Value :=
  deciding? [jsonType, formType] content

variable {g : Graph} {doc : Document} {path : Scalar} {shared operation v s : Value}
  {method type : String} {e : Endpoint} {es : List Endpoint} {entries : List (Scalar × Value)}

/-- What an endpoint has from the contents of its operation. -/
theorem endpoint_content (h : endpoint g path shared method operation = .ok e) :
    (∃ schema, requestSchema g operation = .ok schema ∧
      e.requestBody = (schema.expose g).present?) ∧
    contentType g operation = .ok e.contentType ∧ responses g operation = .ok e.responses := by
  simp only [endpoint, Chain.bind_eq_ok_iff, Endpoint.ofDraft_eq_ok_iff] at h
  obtain ⟨_, -, _, -, _, -, schema, read, _, type, _, -, _, answers, _, -, _, _, body, _, -, -,
    checked, -, rfl⟩ := h
  exact ⟨⟨schema, read, (Field.mappingOrNull_eq_ok_iff.mp checked).symm⟩, type, answers⟩

theorem schema?_of_schemaOf (h : schemaOf g v = .ok s) : (s.expose g).present? = schema? g v :=
  Value.present?_lookupD h

theorem firstSchema?_of_mapping {found : Option Value} (content : v.expose g = .mapping entries)
    (h : firstSchema? g v = .ok found) :
    found.isSome = !entries.isEmpty ∧
      ((found.getD .null).expose g).present? =
        (entries.head?.map Prod.snd).bind (schema? g) := by
  rw [firstSchema?, Value.entries_eq_ok_iff.mpr content] at h
  cases entries with
  | nil =>
    cases h
    exact ⟨rfl, rfl⟩
  | cons entry entries =>
    obtain ⟨schema, read, rfl⟩ := Chain.map_eq_ok_iff.mp h
    exact ⟨rfl, schema?_of_schemaOf read⟩

/-- The schema of a content is that of the media type that decides. -/
theorem contentSchema_of_mapping {preferred : List String} (content : v.expose g = .mapping entries)
    (h : contentSchema g v preferred = .ok s) :
    (s.expose g).present? = (deciding? preferred entries).bind (schema? g) := by
  induction preferred with
  | nil =>
    obtain ⟨found, first, rfl⟩ := Chain.map_eq_ok_iff.mp h
    exact (firstSchema?_of_mapping content first).2
  | cons type others ih =>
    have mentions : v.mentions g type = .ok (Entries.has (.text type) entries) := by
      rw [Value.mentions, content]
    rw [contentSchema, mentions, Logged.ok_bind] at h
    cases found : Entries.get? (.text type) entries with
    | none =>
      rw [Entries.has, found, Option.isSome_none, if_neg Bool.false_ne_true] at h
      rw [ih h, deciding?, deciding?, List.findSome?_cons, found]
    | some media =>
      have mentioned : v.mentioned g type = .ok media := by
        rw [Value.mentioned, content]
        dsimp only
        rw [found]
      rw [Entries.has, found, Option.isSome_some, if_pos rfl, mentioned, Logged.ok_bind] at h
      rw [schema?_of_schemaOf h, deciding?, List.findSome?_cons, found]
      rfl

theorem at?_eq_some_lookupD {default : Value} (found : v.at? g type = some s) :
    v.lookupD g type default = .ok s := by
  rw [Value.at?] at found
  cases shape : v.expose g with
  | mapping entries =>
    rw [shape] at found
    rw [Value.lookupD_of_mapping shape]
    exact congrArg (fun found : Option Value => Except.ok (found.getD default)) found
  | _ =>
    rw [shape] at found
    cases found

theorem truthy_of_at? (found : v.at? g type = some s) : v.truthy = true := by
  cases v with
  | mapping entries => cases entries <;> first | rfl | cases found
  | ref => rfl
  | _ => cases found

/-- The request body of an operation with a content is the schema of the media type that decides,
and the media type that is named is that of a form exactly when the content mentions one. -/
theorem Operation.Gives.request {o : Operation} {content : List (Scalar × Value)}
    (h : o.Gives g e) (has : o.HasContent g content) :
    e.requestBody = (requested? content).bind (schema? g) ∧
      e.contentType = if Entries.has (.text formType) content then formType else jsonType := by
  obtain ⟨body, found, inOperation, inBody, isContent⟩ := has
  obtain ⟨⟨schema, read, kept⟩, type, -⟩ := endpoint_content h
  have given := truthy_of_at? inBody
  rw [requestSchema, at?_eq_some_lookupD inOperation, Logged.ok_bind, if_pos given, contentOf,
    at?_eq_some_lookupD inBody, Logged.ok_bind] at read
  rw [contentType, at?_eq_some_lookupD inOperation, Logged.ok_bind, if_pos given, contentOf,
    at?_eq_some_lookupD inBody, Logged.ok_bind, Value.mentions, isContent] at type
  exact ⟨kept.trans (contentSchema_of_mapping isContent read), (Except.ok.inj type).symm⟩

/-- The endpoint names the media type whose schema it has. -/
def Names (g : Graph) (content : List (Scalar × Value)) (e : Endpoint) : Prop :=
  ∃ media, Entries.get? (.text e.contentType) content = some media ∧
    e.requestBody = schema? g media

/-- The content mentions one of the two media types that can be named, and if it mentions both, they
have the same schema. -/
def Nameable (g : Graph) (content : List (Scalar × Value)) : Prop :=
  (Entries.has (.text jsonType) content = true ∨ Entries.has (.text formType) content = true) ∧
    ∀ json form, Entries.get? (.text jsonType) content = some json →
      Entries.get? (.text formType) content = some form → schema? g json = schema? g form

theorem names_iff {o : Operation} {content : List (Scalar × Value)} (h : o.Gives g e)
    (has : o.HasContent g content) : Names g content e ↔ Nameable g content := by
  obtain ⟨body, type⟩ := h.request has
  rw [Names, Nameable, type, body, requested?, deciding?]
  cases json : Entries.get? (.text jsonType) content <;>
    cases form : Entries.get? (.text formType) content <;>
    simp [Entries.has, json, form]

/-- An endpoint names the media type whose schema it has exactly when the content of its operation
mentions one of the two media types that can be named and has the same schema for both. -/
theorem contentType_names_iff (h : (endpoints doc).result = .ok es) :
    List.Forall₂ (fun o e => ∀ content, o.HasContent doc.graph content →
      (Names doc.graph content e ↔ Nameable doc.graph content)) (operations doc) es :=
  (give_endpoints h).imp fun _ _ gives _ has => names_iff gives has

/-- The content with a form, its schema a mapping of one field. -/
def formContent : List (Scalar × Value) :=
  [(.text formType, .object [("schema", .object [("title", .text "form")])])]

/-- The content with a form behind another schema. -/
def mixedContent : List (Scalar × Value) :=
  (.text jsonType, .object [("schema", .object [("title", .text "json")])]) :: formContent

/-- A document with two operations, the one with a form alone and the other with both contents. -/
def uploads : Document :=
  ⟨[], .object [("openapi", .text "3.0.0"), ("paths", .object [("/pets", .object
    [("put", .object [("requestBody", .object [("content", .mapping formContent)])]),
      ("post", .object [("requestBody", .object [("content", .mapping mixedContent)])])])])]⟩

/-- The condition of `contentType_names_iff` holds for `uploads`. The first of its endpoints names
the media type of its schema, the second does not. -/
theorem uploads_named : ∃ first second, (endpoints uploads).result = .ok [first, second] ∧
    Names [] formContent first ∧ ¬Names [] mixedContent second := by
  refine ⟨_, _, rfl, ?_⟩
  have named := @contentType_names_iff uploads _ rfl
  obtain _ | ⟨single, _ | ⟨mixed, -⟩⟩ := named
  refine ⟨(single formContent ⟨_, _, rfl, rfl, rfl⟩).mpr
    ⟨.inr rfl, fun _ _ absent => nomatch absent⟩, fun names => ?_⟩
  have same := ((mixed mixedContent ⟨_, _, rfl, rfl, rfl⟩).mp names).2 _ _ rfl rfl
  exact absurd same (by simp [schema?, Value.at?, Value.object, Value.get?, Value.present?,
    Value.isNull, Entries.get?, Value.text])

/-- An endpoint can name a media type whose schema it does not have: the second one of `uploads` has
the schema of `application/json` and names `multipart/form-data`. -/
theorem form_named_for_json :
    ¬∀ (doc : Document) (es : List Endpoint), (endpoints doc).result = .ok es →
      List.Forall₂ (fun o e => ∀ content, o.HasContent doc.graph content → content ≠ [] →
        Names doc.graph content e) (operations doc) es := by
  intro claim
  obtain _ | ⟨-, _ | ⟨mixed, -⟩⟩ := claim uploads _ rfl
  obtain ⟨media, named, body⟩ := mixed mixedContent ⟨_, _, rfl, rfl, rfl⟩ (by simp [mixedContent])
  cases named
  exact absurd body (by simp [schema?, Value.at?, Value.object, Value.get?, Value.present?,
    Value.isNull, Entries.get?, Value.text])

/-- The media types of the content of a request body or a response. -/
def media (g : Graph) (v : Value) : List (Scalar × Value) :=
  match ((v.at? g "content").getD (.mapping [])).expose g with
  | .mapping content => content
  | _ => []

/-- Where the schema of a response is looked for: the first media type of its content, or the
response itself if there is none. -/
def answering (g : Graph) (v : Value) : Value := ((media g v).head?.map Prod.snd).getD v

/-- The response has a schema, of its own or under one of its media types. -/
def Declares (g : Graph) (v : Value) : Prop :=
  (schema? g v).isSome ∨ ∃ entry ∈ media g v, (schema? g entry.2).isSome

/-- The responses of an operation with their statuses. -/
def Operation.statuses (g : Graph) (o : Operation) : List (Scalar × Value) :=
  match ((o.value.at? g "responses").getD (.mapping [])).expose g with
  | .mapping statuses => statuses
  | _ => []

/-- The last response under a status that is shown as a text. -/
def Operation.lastResponse? (g : Graph) (o : Operation) (status : String) : Option Value :=
  ((o.statuses g).reverse.find? fun entry => entry.1.display == status).map Prod.snd

/-- The schema of a response that an endpoint has. -/
def keptSchema? (g : Graph) (r : Response) : Option Value :=
  r.schema.bind fun schema => (schema.expose g).present?

theorem bind_present? (v : Value) :
    (v.present?.bind fun w => (w.expose g).present?) = (v.expose g).present? := by
  unfold Value.present?
  cases null : v.isNull with
  | false => rfl
  | true =>
    cases v with
    | scalar s => cases s <;> first | rfl | cases null
    | _ => cases null

/-- A response keeps the schema of the place where it is looked for. -/
theorem keptSchema?_of_response {r : Response} (h : response g v = .ok r) :
    keptSchema? g r = schema? g (answering g v) := by
  simp only [response, contentOf, Chain.bind_eq_ok_iff] at h
  obtain ⟨description, -, own, ownRead, content, contentRead, inContent, first, made⟩ := h
  cases made
  obtain ⟨entries, isMapping, -⟩ := Chain.bind_eq_ok_iff.mp first
  rw [Value.entries_eq_ok_iff] at isMapping
  have medias : media g v = entries := by
    rw [media, ← Value.eq_of_lookupD contentRead, isMapping]
  obtain ⟨there, kept⟩ := firstSchema?_of_mapping isMapping first
  have shown : keptSchema? g ⟨description, if (inContent.getD own).isNull then none else
      some (inContent.getD own)⟩ = ((inContent.getD own).expose g).present? := bind_present? _
  rw [shown, answering, medias]
  cases entries with
  | nil =>
    cases inContent with
    | none => exact schema?_of_schemaOf ownRead
    | some found => cases there
  | cons entry entries =>
    cases inContent with
    | none => cases there
    | some found => exact kept

/-- The response of an endpoint under a status is that of the last status that is shown like it. -/
theorem find?_response {status : String} {statuses : List (Scalar × Value)}
    {pairs : List (String × Response)}
    (h : List.Forall₂ (fun entry pair => pair.1 = entry.1.display ∧ response g entry.2 = .ok pair.2)
      statuses pairs) :
    ((pairs.find? fun pair => pair.1 == status).map Prod.snd).bind (keptSchema? g) =
      ((statuses.find? fun entry => entry.1.display == status).map Prod.snd).bind fun v =>
        schema? g (answering g v) := by
  induction h with
  | nil => rfl
  | cons here _ ih =>
    rw [List.find?_cons, List.find?_cons, here.1]
    split
    · exact keptSchema?_of_response here.2
    · exact ih

theorem Operation.Gives.response {o : Operation} (h : o.Gives g e) (status : String) :
    (Entries.get? status e.responses).bind (keptSchema? g) =
      (o.lastResponse? g status).bind fun v => schema? g (answering g v) := by
  obtain ⟨-, -, read⟩ := endpoint_content h
  simp only [responses, Chain.bind_eq_ok_iff, Chain.mapM_eq_ok_iff] at read
  obtain ⟨declared, looked, found, mapping, pairs, each, made⟩ := read
  have same : o.statuses g = found := by
    rw [statuses, ← Value.eq_of_lookupD looked, Value.entries_eq_ok_iff.mp mapping]
  rw [← Except.ok.inj made, Entries.get?_ofPairs, lastResponse?, same]
  refine find?_response (List.forall₂_reverse_iff.mpr (each.imp ?_))
  rintro entry pair made
  obtain ⟨r, read, rfl⟩ := Chain.map_eq_ok_iff.mp made
  exact ⟨rfl, read⟩

/-- An endpoint has a schema for its request exactly when the media type that decides has one, and a
schema for a status exactly when the last response that is shown under it has one where it is looked
for. So of what an operation declares just that is lost. -/
theorem schemas_kept_iff (h : (endpoints doc).result = .ok es) :
    List.Forall₂ (fun o e =>
      (∀ content, o.HasContent doc.graph content → (e.requestBody.isSome ↔
        ∃ decides, requested? content = some decides ∧ (schema? doc.graph decides).isSome)) ∧
      ∀ status, (∃ r, Entries.get? status e.responses = some r ∧ (keptSchema? doc.graph r).isSome) ↔
        ∃ v, o.lastResponse? doc.graph status = some v ∧
          (schema? doc.graph (answering doc.graph v)).isSome) (operations doc) es := by
  refine (give_endpoints h).imp fun o e gives => ⟨fun content has => ?_, fun status => ?_⟩
  · rw [(gives.request has).1, Option.isSome_bind]
    exact Option.any_eq_true _ _
  · have same := congrArg Option.isSome (gives.response status)
    rw [Option.isSome_bind, Option.isSome_bind] at same
    rw [← Option.any_eq_true, ← Option.any_eq_true, same]

/-- A content whose first media type has no schema. -/
def choiceContent : List (Scalar × Value) :=
  [(.text "text/plain", .object []),
    (.text "application/xml", .object [("schema", .object [("title", .text "xml")])])]

/-- A document with an operation that takes the content and answers with it under one of two
statuses that are shown alike. -/
def choices : Document :=
  ⟨[], .object [("openapi", .text "3.0.0"), ("paths", .object [("/pets", .object
    [("post", .object [("requestBody", .object [("content", .mapping choiceContent)]),
      ("responses", .mapping
        [(.int 200, .object [("schema", .object [("title", .text "own")])]),
          (.int 201, .object [("schema", .object [("title", .text "own")])]),
          (.text "200", .object [("schema", .object [("title", .text "own")]),
            ("content", .mapping choiceContent)])])])])])]⟩

/-- The condition of `schemas_kept_iff` holds for `choices`, whose endpoint keeps the schema of one
response and loses the others. -/
theorem choices_kept : ∃ e, (endpoints choices).result = .ok [e] ∧ e.requestBody.isSome = false ∧
    (∃ r, Entries.get? "201" e.responses = some r ∧ (keptSchema? [] r).isSome) ∧
    ¬∃ r, Entries.get? "200" e.responses = some r ∧ (keptSchema? [] r).isSome := by
  refine ⟨_, rfl, ?_⟩
  obtain _ | ⟨⟨request, responses⟩, -⟩ := @schemas_kept_iff choices _ rfl
  refine ⟨?_, (responses "201").mpr ⟨_, rfl, rfl⟩, fun kept => ?_⟩
  · rw [Bool.eq_false_iff, Ne, request choiceContent ⟨_, _, rfl, rfl, rfl⟩]
    rintro ⟨_, ⟨⟩, isSome⟩
    cases isSome
  · obtain ⟨_, ⟨⟩, isSome⟩ := (responses "200").mp kept
    cases isSome

/-- An endpoint can be without a schema that its operation declares: that of the request of
`choices` stands under the second media type. -/
theorem second_schema_lost :
    ¬∀ (doc : Document) (es : List Endpoint), (endpoints doc).result = .ok es →
      List.Forall₂ (fun o e =>
        (∀ content, o.HasContent doc.graph content →
          (∃ entry ∈ content, (schema? doc.graph entry.2).isSome) → e.requestBody.isSome) ∧
        ∀ entry ∈ o.statuses doc.graph, Declares doc.graph entry.2 →
          ∃ r, Entries.get? entry.1.display e.responses = some r ∧
            (keptSchema? doc.graph r).isSome) (operations doc) es := by
  intro claim
  obtain _ | ⟨⟨request, -⟩, -⟩ := claim choices _ rfl
  have declared : ∃ entry ∈ choiceContent, (schema? [] entry.2).isSome :=
    ⟨_, List.mem_cons_of_mem _ List.mem_cons_self, rfl⟩
  cases request choiceContent ⟨_, _, rfl, rfl, rfl⟩ declared

end Api

end RequestWriter
