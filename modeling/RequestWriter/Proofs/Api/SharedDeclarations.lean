import RequestWriter.Proofs.Api.Schemas

/-!
# Declarations that the operations of a path share

A path may declare parameters for all of its operations. That is meant as a shorthand: the shared
declarations could as well stand in front of those of every operation. Moving them there leaves an
endpoint as it is in everything but its request body. In the older form of a document the body is
declared among the parameters, and it is looked for among those of the operation alone, so a shared
declaration in the body counts only once it has been moved.
-/

namespace RequestWriter

namespace Api

/-- An operation with declarations in front of its own, if these are a list. -/
def withDeclarations (g : Graph) : List Value → Value → Value
  | [], operation => operation
  | shared, operation =>
    match operation.expose g, ((operation.at? g "parameters").getD (.list [])).expose g with
    | .mapping fields, .list own =>
      .mapping (Entries.put (.text "parameters") (.list (shared ++ own)) fields)
    | _, _ => operation

/-- Whether a key of a path is a method. -/
def isMethod : Scalar → Bool
  | .text key => methods.contains (Text.upper key)
  | _ => false

/-- An entry of a path with shared declarations moved into it, if it is an operation. -/
def moveInto (g : Graph) (shared : List Value) (entry : Scalar × Value) : Scalar × Value :=
  (entry.1, if isMethod entry.1 then withDeclarations g shared entry.2 else entry.2)

/-- A path whose shared declarations, if they are a list, are moved to the front of those of each of
its operations. -/
def movedDown (g : Graph) (path : Value) : Value :=
  match path.expose g, ((path.at? g "parameters").getD (.list [])).expose g with
  | .mapping entries, .list shared =>
    .mapping ((entries.filter fun entry => !entry.1 == .text "parameters").map (moveInto g shared))
  | _, _ => path

/-- Paths with all shared declarations moved down. -/
def movedDownAll (g : Graph) (paths : Value) : Value :=
  match paths.expose g with
  | .mapping entries => .mapping (entries.map fun entry => (entry.1, movedDown g entry.2))
  | _ => paths

/-- The document with all shared declarations moved down. -/
def moveDown (doc : Document) : Document :=
  match doc.root.expose doc.graph with
  | .mapping entries =>
    { doc with root := .mapping (entries.map fun entry =>
        (entry.1, if entry.1 == .text "paths" then movedDownAll doc.graph entry.2 else entry.2)) }
  | _ => doc

/-- The operation with the shared declarations moved into it. -/
def Operation.moved (g : Graph) (o : Operation) : Operation :=
  match o.shared.expose g with
  | .list shared => { o with shared := .list [], value := withDeclarations g shared o.value }
  | _ => o

variable {g : Graph} {doc : Document} {path : Scalar} {shared operation : Value}
  {declared own : List Value} {fields : List (Scalar × Value)} {method key : String}
  {e e' : Endpoint} {es : List Endpoint}

section Operation

/-- What an endpoint is read from. -/
structure ReadFrom (g : Graph) (path : Scalar) (shared : Value) (method : String)
    (operation : Value) (e : Endpoint) : Prop where
  method : e.method = method
  path : Field.text ["path"] (.scalar path) = .ok e.path
  summary : ∃ v, operation.lookupD g "summary" (Value.text "") = .ok v ∧
    Field.text ["summary"] v = .ok e.summary
  parameters : ∃ own items, operation.lookupD g "parameters" (.list []) = .ok own ∧
    shared.partsOfBoth g own = .ok items ∧ parametersOf g items = .ok e.parameters
  requestBody : ∃ schema body, requestSchema g operation = .ok schema ∧
    (schema.expose g).present? = Option.map Value.mapping body ∧
    e.requestBody = Option.map Value.mapping body
  responses : responses g operation = .ok e.responses
  tags : ∃ v, operation.lookupD g "tags" (.list []) = .ok v ∧
    Field.list Field.text ["tags"] (v.expose g) = .ok e.tags
  contentType : contentType g operation = .ok e.contentType

theorem endpoint_eq_ok_iff :
    endpoint g path shared method operation = .ok e ↔
      ReadFrom g path shared method operation e := by
  simp only [endpoint, Chain.bind_eq_ok_iff, Endpoint.ofDraft_eq_ok_iff,
    Field.mappingOrNull_eq_ok_iff]
  constructor
  · rintro ⟨own, isOwn, items, both, parameters, read, schema, isSchema, type, isType, summary,
      isSummary, answers, isAnswers, tags, isTags, name, title, body, words, isName, isTitle,
      isBody, areWords, rfl⟩
    exact ⟨rfl, isName, ⟨_, isSummary, isTitle⟩, ⟨_, _, isOwn, both, read⟩,
      ⟨_, _, isSchema, isBody, rfl⟩, isAnswers, ⟨_, isTags, areWords⟩, isType⟩
  · rintro ⟨isMethod, isName, ⟨summary, isSummary, isTitle⟩, ⟨own, items, isOwn, both, read⟩,
      ⟨schema, body, isSchema, isBody, same⟩, isAnswers, ⟨tags, isTags, areWords⟩, isType⟩
    refine ⟨own, isOwn, items, both, _, read, schema, isSchema, _, isType, summary, isSummary, _,
      isAnswers, tags, isTags, _, _, body, _, isName, isTitle, isBody, areWords, ?_⟩
    rw [← same, ← isMethod]

/-- Declarations that are put in front of those of an operation change nothing else in it. -/
theorem withDeclarations_cases : withDeclarations g declared operation = operation ∨
    ∃ fields items, operation.expose g = .mapping fields ∧
      withDeclarations g declared operation =
        .mapping (Entries.put (.text "parameters") items fields) := by
  unfold withDeclarations
  split
  · exact .inl rfl
  · split
    · next fields own mapping _ => exact .inr ⟨fields, _, mapping, rfl⟩
    · exact .inl rfl

theorem lookupD_withDeclarations (other : key ≠ "parameters") (default : Value) :
    (withDeclarations g declared operation).lookupD g key default =
      operation.lookupD g key default := by
  rcases @withDeclarations_cases g operation declared with same | ⟨fields, items, mapping, put⟩
  · rw [same]
  · rw [put, Value.lookupD_of_mapping mapping, Value.lookupD_of_mapping (Value.expose_mapping g _),
      Entries.get?_put (Scalar.exact_text _), if_neg (by simpa using Ne.symm other)]

theorem at?_withDeclarations (other : key ≠ "parameters") :
    (withDeclarations g declared operation).at? g key = operation.at? g key := by
  rcases @withDeclarations_cases g operation declared with same | ⟨fields, items, mapping, put⟩
  · rw [same]
  · rw [put, Value.at?_of_mapping mapping, Value.at?_of_mapping (Value.expose_mapping g _),
      Entries.get?_put (Scalar.exact_text _), if_neg (by simpa using Ne.symm other)]

/-- Only in a mapping something is looked up. -/
theorem mapping_of_lookupD {v w default : Value} (h : v.lookupD g key default = .ok w) :
    ∃ fields, v.expose g = .mapping fields := by
  obtain ⟨_, looked, -⟩ := Chain.map_eq_ok_iff.mp h
  obtain ⟨fields, mapping, -⟩ := Chain.map_eq_ok_iff.mp looked
  exact ⟨fields, Value.entries_eq_ok_iff.mp mapping⟩

theorem contentType_withDeclarations :
    contentType g (withDeclarations g declared operation) = contentType g operation := by
  rw [contentType, contentType, lookupD_withDeclarations (by decide)]

theorem responses_withDeclarations :
    responses g (withDeclarations g declared operation) = responses g operation := by
  rw [responses, responses, lookupD_withDeclarations (by decide)]

/-- The declarations of an operation behind those that are put in front of them. -/
theorem declarations_moved {found : Value} {items : List Value}
    (isList : shared.expose g = .list declared)
    (looked : operation.lookupD g "parameters" (.list []) = .ok found)
    (both : shared.partsOfBoth g found = .ok items) :
    ∃ own, found.expose g = .list own ∧ items = declared ++ own ∧
      ∃ moved, (withDeclarations g declared operation).lookupD g "parameters" (.list []) =
        .ok moved ∧ moved.expose g = .list items := by
  rw [Value.partsOfBoth, isList] at both
  cases ownList : found.expose g with
  | list own =>
    rw [ownList] at both
    obtain rfl := Except.ok.inj both
    refine ⟨own, rfl, rfl, ?_⟩
    cases declared with
    | nil => exact ⟨found, looked, ownList⟩
    | cons first declared =>
      have isFound := Value.eq_of_lookupD looked
      obtain ⟨fields, mapping⟩ := mapping_of_lookupD looked
      rw [withDeclarations, mapping, ← isFound, ownList]
      · refine ⟨.list (first :: declared ++ own), ?_, rfl⟩
        dsimp only
        rw [Value.lookupD_of_mapping (Value.expose_mapping g _),
          Entries.get?_put (Scalar.exact_text _), if_pos (by simp)]
        rfl
      · exact List.cons_ne_nil _ _
  | _ =>
    rw [ownList] at both
    cases both

/-- The search for a declaration in the body ends at a declaration: at one in the body, or at
something that is no declaration at all. -/
def endsSearch (g : Graph) (p : Value) : Bool :=
  match p.expose g with
  | .mapping fields => ((Entries.get? (.text "in") fields).getD .null).isText "body"
  | _ => true

theorem declaredBody_eq (items : List Value) :
    declaredBody g items =
      (items.find? (endsSearch g)).elim (.ok Value.null) (schemaOf g) := by
  induction items with
  | nil => rfl
  | cons p items ih =>
    rw [declaredBody, List.find?_cons, endsSearch]
    cases shape : p.expose g with
    | mapping fields =>
      rw [Value.lookupD_of_mapping shape, Logged.ok_bind]
      dsimp only
      cases ((Entries.get? (.text "in") fields).getD .null).isText "body" with
      | true => rfl
      | false => exact ih
    | _ =>
      have fault : ∀ key, p.lookupD g key .null = .error .lacksOperation := by
        intro key
        rw [Value.lookupD, Value.lookup, Value.entries, shape]
        rfl
      simp only [fault, schemaOf, Logged.error_bind, Option.elim_some]

/-- The operation has a request body that counts as given. -/
def HasBody (g : Graph) (operation : Value) : Prop :=
  ∃ body, operation.at? g "requestBody" = some body ∧ body.truthy = true

theorem requestSchema_of_hasBody (has : HasBody g operation) :
    requestSchema g (withDeclarations g declared operation) = requestSchema g operation := by
  obtain ⟨body, there, given⟩ := has
  have looked : operation.lookupD g "requestBody" .null = .ok body := at?_eq_some_lookupD there
  rw [requestSchema, requestSchema, lookupD_withDeclarations (by decide), looked, Logged.ok_bind,
    Logged.ok_bind, if_pos given, if_pos given]

/-- Without a request body its schema is declared among the parameters. -/
theorem requestSchema_of_not_hasBody {found : Value} {items : List Value}
    (hasNot : ¬HasBody g operation) (mapping : operation.expose g = .mapping fields)
    (looked : operation.lookupD g "parameters" (.list []) = .ok found)
    (isList : found.expose g = .list items) :
    requestSchema g operation = declaredBody g items := by
  have notGiven : ((Entries.get? (.text "requestBody") fields).getD .null).truthy = false := by
    cases there : Entries.get? (.text "requestBody") fields with
    | none => rfl
    | some body =>
      rw [Option.getD_some, Bool.eq_false_iff]
      exact fun given => hasNot ⟨body, (Value.at?_of_mapping mapping).trans there, given⟩
  rw [requestSchema, Value.lookupD_of_mapping mapping, Logged.ok_bind, notGiven,
    if_neg Bool.false_ne_true, looked, Logged.ok_bind, Value.parts, isList]
  rfl

/-- Whether the request body that an endpoint has from its operation stays when the shared
declarations are moved: the operation has a body of its own kind, or the first shared declaration at
which the search for one ends, if there is such a declaration, has the same schema. -/
def KeepsBody (g : Graph) (o : Operation) (e : Endpoint) : Prop :=
  HasBody g o.value ∨ ∀ declared p, o.shared.expose g = .list declared →
    declared.find? (endsSearch g) = some p →
      (∃ fields, p.expose g = .mapping fields) ∧ schema? g p = e.requestBody

/-- An endpoint of a moved operation differs in its request body at most. -/
theorem ReadFrom.eq_of_moved (isList : shared.expose g = .list declared)
    (h : ReadFrom g path shared method operation e)
    (h' : ReadFrom g path (.list []) method (withDeclarations g declared operation) e') :
    e' = { e with requestBody := e'.requestBody } := by
  obtain ⟨sameMethod, name, ⟨summary, isSummary, title⟩, ⟨found, items, looked, both, read⟩, -,
    answers, ⟨tags, isTags, words⟩, type⟩ := h
  obtain ⟨sameMethod', name', ⟨summary', isSummary', title'⟩, ⟨found', items', looked', both',
    read'⟩, -, answers', ⟨tags', isTags', words'⟩, type'⟩ := h'
  obtain ⟨own, -, rfl, moved, movedLooked, movedList⟩ := declarations_moved isList looked both
  rw [lookupD_withDeclarations (by decide), isSummary] at isSummary'
  rw [lookupD_withDeclarations (by decide), isTags] at isTags'
  rw [contentType_withDeclarations, type] at type'
  rw [responses_withDeclarations, answers] at answers'
  rw [movedLooked] at looked'
  cases looked'
  rw [Value.partsOfBoth, Value.expose_list, movedList] at both'
  obtain rfl := Except.ok.inj both'
  cases isSummary'
  cases isTags'
  rw [List.nil_append, read] at read'
  rw [name] at name'
  rw [title] at title'
  rw [words] at words'
  cases e
  cases e'
  simp_all

/-- All fields of the endpoint but the body are read from the moved operation as before. -/
theorem ReadFrom.moved_iff_requestBody (isList : shared.expose g = .list declared)
    (h : ReadFrom g path shared method operation e) :
    ReadFrom g path (.list []) method (withDeclarations g declared operation) e ↔
      ∃ schema body, requestSchema g (withDeclarations g declared operation) = .ok schema ∧
        (schema.expose g).present? = Option.map Value.mapping body ∧
        e.requestBody = Option.map Value.mapping body := by
  obtain ⟨sameMethod, name, ⟨summary, isSummary, title⟩, ⟨found, items, looked, both, read⟩, -,
    answers, ⟨tags, isTags, words⟩, type⟩ := h
  obtain ⟨own, -, rfl, moved, movedLooked, movedList⟩ := declarations_moved isList looked both
  refine ⟨fun h => h.requestBody, fun read' => ⟨sameMethod, name, ⟨summary, ?_, title⟩,
    ⟨moved, declared ++ own, movedLooked, ?_, read⟩, read', ?_, ⟨tags, ?_, words⟩, ?_⟩⟩
  · rw [lookupD_withDeclarations (by decide), isSummary]
  · rw [Value.partsOfBoth, Value.expose_list, movedList]
    rfl
  · rw [responses_withDeclarations, answers]
  · rw [lookupD_withDeclarations (by decide), isTags]
  · rw [contentType_withDeclarations, type]

/-- The endpoint of an operation is that of the moved operation exactly when its body stays. -/
theorem ReadFrom.moved_iff {o : Operation} (isList : o.shared.expose g = .list declared)
    (h : ReadFrom g o.path o.shared o.method o.value e) :
    ReadFrom g o.path (.list []) o.method (withDeclarations g declared o.value) e ↔
      KeepsBody g o e := by
  rw [h.moved_iff_requestBody isList]
  obtain ⟨found, items, looked, both, -⟩ := h.parameters
  obtain ⟨schema, body, isSchema, present, kept⟩ := h.requestBody
  by_cases has : HasBody g o.value
  · rw [requestSchema_of_hasBody has]
    exact iff_of_true ⟨schema, body, isSchema, present, kept⟩ (.inl has)
  · have hasNot : ¬HasBody g (withDeclarations g declared o.value) := by
      rwa [HasBody, at?_withDeclarations (by decide)]
    obtain ⟨own, ownList, rfl, moved, movedLooked, movedList⟩ :=
      declarations_moved isList looked both
    obtain ⟨fields, mapping⟩ := mapping_of_lookupD looked
    obtain ⟨movedFields, movedMapping⟩ := mapping_of_lookupD movedLooked
    rw [requestSchema_of_not_hasBody hasNot movedMapping movedLooked movedList, declaredBody_eq,
      List.find?_append]
    rw [requestSchema_of_not_hasBody has mapping looked ownList, declaredBody_eq] at isSchema
    constructor
    · rintro ⟨schema', body', isSchema', present', kept'⟩
      refine .inr fun shared p sharedList ends => ?_
      obtain rfl := Value.list.inj (isList.symm.trans sharedList)
      rw [ends] at isSchema'
      refine ⟨mapping_of_lookupD isSchema', ?_⟩
      rw [← schema?_of_schemaOf isSchema', present', kept']
    · rintro (given | keeps)
      · exact absurd given has
      · cases ends : declared.find? (endsSearch g) with
        | none => exact ⟨schema, body, isSchema, present, kept⟩
        | some p =>
          obtain ⟨⟨pFields, pMapping⟩, same⟩ := keeps declared p isList ends
          have found : schemaOf g p = _ := Value.lookupD_of_mapping pMapping _ _
          refine ⟨_, body, found, ?_, kept⟩
          rw [schema?_of_schemaOf found, same, kept]

end Operation

section Document

/-- The key of an entry of a path has a letter case or is one that names no method. -/
def HasCase (key : Scalar) : Prop := ∃ method, methodOf? key = .ok method

theorem endpoint?_eq_ok_iff {entry : Scalar × Value} {found : Option Endpoint} :
    endpoint? g path shared entry = .ok found ↔
      HasCase entry.1 ∧ Option.Rel (Operation.Gives g) (operation? path shared entry) found := by
  constructor
  · intro h
    obtain ⟨method, known, -⟩ := Chain.bind_eq_ok_iff.mp h
    exact ⟨⟨method, known⟩, gives_endpoint? h⟩
  · rintro ⟨⟨method, known⟩, gives⟩
    obtain ⟨key, operation⟩ := entry
    rw [endpoint?, known, Logged.ok_bind]
    cases key with
    | text s =>
      cases known
      by_cases member : Text.upper s ∈ methods
      · rw [operation?, if_pos member] at gives
        cases gives with
        | some gives =>
          rw [if_pos (List.contains_iff_mem.mpr member)]
          exact Chain.map_eq_ok_iff.mpr ⟨_, gives, rfl⟩
      · rw [operation?, if_neg member] at gives
        cases gives
        rw [if_neg (mt List.contains_iff_mem.mp member)]
        rfl
    | bytes b =>
      cases known
      cases gives
      rfl
    | _ => cases known

theorem exists_of_filterMap {α β γ : Type} {belongs : β → γ → Prop} {f : α → Option β} {as : List α}
    {cs : List γ} (h : List.Forall₂ belongs (as.filterMap f) cs) :
    ∃ found, List.Forall₂ (fun a c => Option.Rel belongs (f a) c) as found ∧
      found.filterMap id = cs := by
  induction as generalizing cs with
  | nil =>
    cases h
    exact ⟨[], .nil, rfl⟩
  | cons a as ih =>
    cases here : f a with
    | none =>
      rw [List.filterMap_cons_none here] at h
      obtain ⟨found, each, rfl⟩ := ih h
      exact ⟨none :: found, .cons (here ▸ .none) each, rfl⟩
    | some b =>
      rw [List.filterMap_cons_some here] at h
      cases h with
      | cons first others =>
        obtain ⟨found, each, rfl⟩ := ih others
        exact ⟨some _ :: found, .cons (here ▸ .some first) each, rfl⟩

theorem exists_of_flatMap {α β γ : Type} {belongs : β → γ → Prop} {f : α → List β} {as : List α}
    {cs : List γ} (h : List.Forall₂ belongs (as.flatMap f) cs) :
    ∃ found, List.Forall₂ (fun a c => List.Forall₂ belongs (f a) c) as found ∧
      found.flatten = cs := by
  induction as generalizing cs with
  | nil =>
    cases h
    exact ⟨[], .nil, rfl⟩
  | cons a as ih =>
    rw [List.flatMap_cons] at h
    have swapped : List.Forall₂ (flip belongs) cs (f a ++ as.flatMap f) := h.flip
    obtain ⟨found, each, others⟩ := ih (List.forall₂_drop_append cs _ _ swapped).flip
    refine ⟨cs.take (f a).length :: found, .cons ?_ each, ?_⟩
    · exact (List.forall₂_take_append cs _ _ swapped).flip
    · rw [List.flatten_cons, others, List.take_append_drop]

/-- The keys of a path can all be taken for methods or for none. -/
def IsPath (g : Graph) (path : Value) : Prop :=
  ∃ entries, path.expose g = .mapping entries ∧ ∀ entry ∈ entries, HasCase entry.1

theorem endpointsOfPath_eq_ok_iff {path : Scalar × Value} :
    endpointsOfPath g path = .ok es ↔
      IsPath g path.2 ∧ List.Forall₂ (Operation.Gives g) (operationsOfPath g path) es := by
  constructor
  · intro h
    refine ⟨?_, give_endpointsOfPath h⟩
    simp only [endpointsOfPath, Chain.bind_eq_ok_iff, Chain.mapM_eq_ok_iff, endpoint?_eq_ok_iff,
      List.forall₂_and_left] at h
    obtain ⟨_, -, entries, mapping, _, ⟨keys, -⟩, -⟩ := h
    exact ⟨entries, Value.entries_eq_ok_iff.mp mapping, keys⟩
  · rintro ⟨⟨entries, mapping, keys⟩, gives⟩
    rw [operationsOfPath, mapping] at gives
    obtain ⟨found, each, rfl⟩ := exists_of_filterMap gives
    simp only [endpointsOfPath, Chain.bind_eq_ok_iff, Chain.mapM_eq_ok_iff, endpoint?_eq_ok_iff,
      List.forall₂_and_left]
    exact ⟨_, Value.lookupD_of_mapping mapping _ _, entries, Value.entries_eq_ok_iff.mpr mapping,
      found, ⟨keys, each⟩, rfl⟩

/-- The paths of a document. -/
def pathsOf (doc : Document) : Value := (doc.root.at? doc.graph "paths").getD .null

/-- The document is a mapping whose paths, if they count as given, are paths. -/
def HasPaths (doc : Document) : Prop :=
  (∃ fields, doc.root.expose doc.graph = .mapping fields) ∧ ((pathsOf doc).truthy = true →
    ∃ entries, (pathsOf doc).expose doc.graph = .mapping entries ∧
      ∀ entry ∈ entries, IsPath doc.graph entry.2)

/-- A document gives endpoints exactly when it has paths and each of its operations gives one. -/
theorem endpoints_eq_ok_iff :
    (endpoints doc).result = .ok es ↔
      HasPaths doc ∧ List.Forall₂ (Operation.Gives doc.graph) (operations doc) es := by
  constructor
  · intro h
    refine ⟨?_, give_endpoints h⟩
    simp only [endpoints, Logged.result_bind, Logged.result_liftM, Chain.bind_eq_ok_iff] at h
    obtain ⟨paths, looked, found, read, -⟩ := h
    refine ⟨mapping_of_lookupD looked, fun given => ?_⟩
    rw [pathsOf, ← Value.eq_of_lookupD looked] at given ⊢
    rw [endpointsOfPaths, if_pos given] at read
    simp only [Chain.bind_eq_ok_iff, Chain.map_eq_ok_iff, Chain.mapM_eq_ok_iff,
      endpointsOfPath_eq_ok_iff, List.forall₂_and_left] at read
    obtain ⟨entries, mapping, _, ⟨paths, -⟩, -⟩ := read
    exact ⟨entries, Value.entries_eq_ok_iff.mp mapping, paths⟩
  · rintro ⟨⟨⟨fields, mapping⟩, paths⟩, gives⟩
    have looked : doc.root.lookupD doc.graph "paths" .null = .ok (pathsOf doc) := by
      rw [Value.lookupD_of_mapping mapping, pathsOf, Value.at?_of_mapping mapping]
    have gives : List.Forall₂ (Operation.Gives doc.graph)
        (operationsOfPaths doc.graph (pathsOf doc)) es := gives
    simp only [endpoints, Logged.result_bind, Logged.result_liftM, Chain.bind_eq_ok_iff]
    refine ⟨_, looked, es, ?_, (), rfl, rfl⟩
    rw [endpointsOfPaths]
    cases given : (pathsOf doc).truthy with
    | false =>
      rw [operationsOfPaths_eq_nil given] at gives
      cases gives
      rfl
    | true =>
      obtain ⟨entries, isMapping, arePaths⟩ := paths given
      rw [operationsOfPaths, isMapping] at gives
      obtain ⟨found, each, rfl⟩ := exists_of_flatMap gives
      rw [if_pos rfl]
      simp only [Chain.bind_eq_ok_iff, Chain.map_eq_ok_iff, Chain.mapM_eq_ok_iff,
        endpointsOfPath_eq_ok_iff, List.forall₂_and_left]
      exact ⟨entries, Value.entries_eq_ok_iff.mpr isMapping, found, ⟨arePaths, each⟩, rfl⟩

section Moved

theorem operation?_moveInto (isList : shared.expose g = .list declared) (entry : Scalar × Value) :
    operation? path (.list []) (moveInto g declared entry) =
      (operation? path shared entry).map (Operation.moved g) := by
  obtain ⟨key, operation⟩ := entry
  cases key with
  | text s =>
    by_cases member : Text.upper s ∈ methods
    · rw [moveInto, isMethod, if_pos (List.contains_iff_mem.mpr member), operation?, operation?,
        if_pos member, if_pos member, Option.map_some, Operation.moved, isList]
    · rw [moveInto, operation?, operation?, if_neg member, if_neg member]
      rfl
  | _ => rfl

/-- Declarations that are no list stay where they are. -/
theorem operation?_stays (notList : ∀ items, shared.expose g ≠ .list items)
    (entry : Scalar × Value) :
    (operation? path shared entry).map (Operation.moved g) = operation? path shared entry := by
  obtain ⟨key, operation⟩ := entry
  cases key with
  | text s =>
    by_cases member : Text.upper s ∈ methods
    · rw [operation?, if_pos member, Option.map_some, Operation.moved]
      split
      · next declared isList => exact absurd isList (notList declared)
      · rfl
    · rw [operation?, if_neg member, Option.map_none]
  | _ => rfl

theorem operation?_parameters {entry : Scalar × Value}
    (h : (entry.1 == Scalar.text "parameters") = true) : operation? path shared entry = none := by
  obtain ⟨key, operation⟩ := entry
  obtain rfl := (Scalar.exact_text _ _).1 h
  rw [operation?, if_neg (by decide +kernel)]

/-- The operations of a path are moved with it. -/
theorem operationsOfPath_movedDown (name : Scalar) (isPath : IsPath g operation) :
    operationsOfPath g (name, movedDown g operation) =
      (operationsOfPath g (name, operation)).map (Operation.moved g) := by
  obtain ⟨entries, mapping, -⟩ := isPath
  have shared_eq : (operation.at? g "parameters").getD (.list []) =
      (Entries.get? (.text "parameters") entries).getD (.list []) := by
    rw [Value.at?_of_mapping mapping]
  rw [movedDown, mapping, shared_eq, operationsOfPath, operationsOfPath, mapping]
  dsimp only
  rw [List.map_filterMap]
  cases isList : ((Entries.get? (.text "parameters") entries).getD (.list [])).expose g with
  | list declared =>
    have absent : Entries.get? (.text "parameters")
        ((entries.filter fun entry => !entry.1 == .text "parameters").map
          (moveInto g declared)) = none := by
      refine Entries.get?_eq_none fun moved mem => ?_
      obtain ⟨entry, kept, rfl⟩ := List.mem_map.mp mem
      simpa [moveInto] using (List.mem_filter.mp kept).2
    rw [Value.expose_mapping]
    dsimp only
    rw [absent, Option.getD_none, List.filterMap_map, List.filterMap_filter]
    refine List.filterMap_congr fun entry _ => ?_
    cases here : entry.1 == Scalar.text "parameters" with
    | true =>
      rw [operation?_parameters here]
      rfl
    | false => exact operation?_moveInto isList entry
  | _ =>
    rw [mapping]
    refine List.filterMap_congr fun entry _ => (operation?_stays ?_ entry).symm
    rw [isList]
    rintro declared ⟨⟩

/-- A path stays one when it is moved. -/
theorem isPath_movedDown (isPath : IsPath g operation) : IsPath g (movedDown g operation) := by
  obtain ⟨entries, mapping, keys⟩ := isPath
  rw [movedDown]
  split
  · next found declared isMapping _ =>
    obtain rfl := Value.mapping.inj (mapping.symm.trans isMapping)
    refine ⟨_, Value.expose_mapping g _, fun moved mem => ?_⟩
    obtain ⟨entry, kept, rfl⟩ := List.mem_map.mp mem
    exact keys entry (List.mem_filter.mp kept).1
  · exact ⟨entries, mapping, keys⟩

theorem moveDown_graph : (moveDown doc).graph = doc.graph := by
  unfold moveDown
  split <;> rfl

theorem pathsOf_moveDown (mapping : doc.root.expose doc.graph = .mapping fields) :
    pathsOf (moveDown doc) =
      ((doc.root.at? doc.graph "paths").map (movedDownAll doc.graph)).getD .null := by
  rw [pathsOf, moveDown_graph, moveDown, mapping, Value.at?_of_mapping mapping]
  dsimp only
  rw [Value.at?_of_mapping (Value.expose_mapping _ _), Entries.get?_map]

theorem movedDownAll_of_not_truthy {paths : Value} (h : paths.truthy = false) :
    movedDownAll g paths = paths := by
  cases paths with
  | mapping entries =>
    have none : entries = [] := by simpa [Value.truthy] using h
    rw [none]
    rfl
  | ref => cases h
  | scalar | list => rfl

/-- The paths of a document are moved with it, and there is nothing to move if it has none. -/
theorem pathsOf_moveDown_eq (has : HasPaths doc) :
    pathsOf (moveDown doc) = movedDownAll doc.graph (pathsOf doc) := by
  obtain ⟨⟨fields, mapping⟩, -⟩ := has
  rw [pathsOf_moveDown mapping, pathsOf]
  cases doc.root.at? doc.graph "paths" with
  | none => rfl
  | some paths => rfl

theorem movedDownAll_of_mapping {paths : Value} (mapping : paths.expose g = .mapping fields) :
    movedDownAll g paths = .mapping (fields.map fun entry => (entry.1, movedDown g entry.2)) := by
  rw [movedDownAll, mapping]

/-- The operations of a document are moved with it. -/
theorem operations_moveDown (has : HasPaths doc) :
    operations (moveDown doc) = (operations doc).map (Operation.moved doc.graph) := by
  change operationsOfPaths (moveDown doc).graph (pathsOf (moveDown doc)) =
    (operationsOfPaths doc.graph (pathsOf doc)).map _
  rw [moveDown_graph, pathsOf_moveDown_eq has]
  cases given : (pathsOf doc).truthy with
  | false =>
    rw [movedDownAll_of_not_truthy given, operationsOfPaths_eq_nil given]
    rfl
  | true =>
    obtain ⟨entries, mapping, paths⟩ := has.2 given
    rw [movedDownAll_of_mapping mapping, operationsOfPaths, operationsOfPaths, mapping,
      Value.expose_mapping]
    dsimp only
    rw [List.flatMap_map, List.map_flatMap]
    exact List.flatMap_congr fun entry mem => operationsOfPath_movedDown _ (paths entry mem)

theorem hasPaths_moveDown (has : HasPaths doc) : HasPaths (moveDown doc) := by
  refine ⟨?_, fun given => ?_⟩
  · obtain ⟨⟨fields, mapping⟩, -⟩ := has
    rw [moveDown_graph, moveDown, mapping]
    exact ⟨_, Value.expose_mapping _ _⟩
  · rw [pathsOf_moveDown_eq has] at given ⊢
    rw [moveDown_graph]
    cases before : (pathsOf doc).truthy with
    | false =>
      rw [movedDownAll_of_not_truthy before, before] at given
      cases given
    | true =>
      obtain ⟨entries, mapping, paths⟩ := has.2 before
      rw [movedDownAll_of_mapping mapping]
      refine ⟨_, Value.expose_mapping _ _, fun moved mem => ?_⟩
      obtain ⟨entry, inside, rfl⟩ := List.mem_map.mp mem
      exact isPath_movedDown (paths entry inside)

/-- The moved operation gives the same endpoint exactly when the body of the operation stays. -/
theorem Operation.Gives.moved_iff {o : Operation} (h : o.Gives g e) :
    (o.moved g).Gives g e ↔ KeepsBody g o e := by
  rw [Gives, moved]
  split
  · next declared isList =>
    rw [endpoint_eq_ok_iff]
    exact (endpoint_eq_ok_iff.mp h).moved_iff isList
  · next notList =>
    refine iff_of_true h (.inr fun declared p isList => ?_)
    exact absurd isList (notList declared)

/-- An endpoint of the moved operation differs in its request body at most. -/
theorem Operation.Gives.eq_of_moved {o : Operation} (h : o.Gives g e)
    (h' : (o.moved g).Gives g e') : e' = { e with requestBody := e'.requestBody } := by
  rw [Gives, moved] at h'
  split at h'
  · next declared isList =>
    rw [endpoint_eq_ok_iff] at h'
    exact (endpoint_eq_ok_iff.mp h).eq_of_moved isList h'
  · rw [Gives] at h
    rw [h] at h'
    cases h'
    rfl

theorem forall₂_iff {α β : Type} {belongs p q : α → β → Prop}
    (same : ∀ a b, belongs a b → (p a b ↔ q a b)) {as : List α} {bs : List β}
    (h : List.Forall₂ belongs as bs) : List.Forall₂ p as bs ↔ List.Forall₂ q as bs := by
  induction h with
  | nil => exact iff_of_true .nil .nil
  | cons here _ ih => rw [List.forall₂_cons, List.forall₂_cons, same _ _ here, ih]

theorem forall₂_join {α β γ : Type} {p : α → β → Prop} {q : α → γ → Prop} {r : β → γ → Prop}
    (join : ∀ a b c, p a b → q a c → r b c) {as : List α} {bs : List β} {cs : List γ}
    (h : List.Forall₂ p as bs) (h' : List.Forall₂ q as cs) : List.Forall₂ r bs cs := by
  induction h generalizing cs with
  | nil =>
    cases h'
    exact .nil
  | cons here _ ih =>
    cases h' with
    | cons here' others => exact .cons (join _ _ _ here here') (ih others)

/-- Moving the declarations that the operations of a path share to the front of those of each
operation gives the same endpoints exactly when no body is found among the shared ones that the
endpoint does not have anyway. Where the moved document gives endpoints at all, they differ in their
request bodies at most. -/
theorem endpoints_moveDown_iff (h : (endpoints doc).result = .ok es) :
    ((endpoints (moveDown doc)).result = .ok es ↔
        List.Forall₂ (KeepsBody doc.graph) (operations doc) es) ∧
      ∀ es', (endpoints (moveDown doc)).result = .ok es' →
        List.Forall₂ (fun e e' => e' = { e with requestBody := e'.requestBody }) es es' := by
  obtain ⟨has, gives⟩ := endpoints_eq_ok_iff.mp h
  have moved : ∀ es', (endpoints (moveDown doc)).result = .ok es' ↔
      List.Forall₂ (fun o e => (o.moved doc.graph).Gives doc.graph e) (operations doc) es' := by
    intro es'
    rw [endpoints_eq_ok_iff, moveDown_graph, operations_moveDown has, List.forall₂_map_left_iff]
    exact and_iff_right (hasPaths_moveDown has)
  refine ⟨(moved es).trans (forall₂_iff (fun _ _ => Operation.Gives.moved_iff) gives),
    fun es' result => ?_⟩
  exact forall₂_join (fun _ _ _ own moved => own.eq_of_moved moved) gives ((moved es').mp result)

/-- A declaration in the body. -/
def bodyDeclaration : Value :=
  .object [("name", .text "pet"), ("in", .text "body"),
    ("schema", .object [("title", .text "Pet")])]

/-- A declaration in the query. -/
def queryDeclaration : Value := .object [("name", .text "limit"), ("in", .text "query")]

/-- A document with a path whose operations share declarations: one has a body of its own kind, one
declares the shared body once more, and one declares nothing. -/
def sharing : Document :=
  ⟨[], .object [("swagger", .text "2.0"), ("paths", .object [("/pets", .object
    [("parameters", .list [queryDeclaration, bodyDeclaration]),
      ("put", .object [("requestBody", .object [("description", .text "a pet")])]),
      ("post", .object [("parameters", .list [bodyDeclaration])]),
      ("delete", .object [])])])]⟩

/-- The condition of `endpoints_moveDown_iff` holds for `sharing`. The bodies of its first two
operations stay, that of the third one does not, so the moved document gives other endpoints. -/
theorem sharing_moved : ∃ put post delete, (endpoints sharing).result = .ok [put, post, delete] ∧
    (endpoints (moveDown sharing)).result ≠ .ok [put, post, delete] ∧
    ∃ delete', (endpoints (moveDown sharing)).result = .ok [put, post, delete'] ∧
      delete' = { delete with requestBody := delete'.requestBody } := by
  refine ⟨_, _, _, rfl, fun same => ?_, _, rfl, ?_⟩
  · obtain _ | ⟨-, _ | ⟨-, _ | ⟨keeps, -⟩⟩⟩ := (@endpoints_moveDown_iff sharing _ rfl).1.mp same
    rcases keeps with ⟨_, ⟨⟩, -⟩ | keeps
    cases (keeps _ bodyDeclaration rfl rfl).2
  · obtain _ | ⟨-, _ | ⟨-, _ | ⟨differs, -⟩⟩⟩ := (@endpoints_moveDown_iff sharing _ rfl).2 _ rfl
    exact differs

/-- Shared declarations are no mere shorthand: the body that the operations of `sharing` share is
found only where it has been moved. -/
theorem shared_body_missed :
    ¬∀ (doc : Document) (es : List Endpoint), (endpoints doc).result = .ok es →
      (endpoints (moveDown doc)).result = .ok es := by
  intro claim
  have same := claim sharing _ rfl
  cases same

end Moved

end Document

end Api

end RequestWriter
