import RequestWriter.Proofs.Chain
import RequestWriter.Proofs.Json.Denoted
import RequestWriter.Request
import RequestWriter.Credential

/-!
# What the check of a record reports

The data of a record against the record: which places of the data are wrong, and what the data has
to do with a record that was read. Both are said in terms of the data alone. A check reports each
wrong place once, in the order of the fields, and gives a record exactly when no place is wrong.
-/

namespace RequestWriter

section Reports

variable {α β : Type} {c : Checked α} {f : Checked (α → β)} {good : α → Prop}
variable {places places' : List (List String)}

/-- The check finds fault with exactly these places, and a value that it gives is a good one. -/
def Checked.Reports (c : Checked α) (places : List (List String)) (good : α → Prop) : Prop :=
  match c with
  | .ok a => places = [] ∧ good a
  | .bad issues => issues ≠ [] ∧ issues.map Issue.location = places

namespace Checked

theorem reports_issue (place : List String) (kind : IssueKind) :
    (issue place kind : Checked α).Reports [place] good :=
  ⟨List.cons_ne_nil _ _, rfl⟩

theorem Reports.imp {good' : α → Prop} (h : c.Reports places good)
    (imp : ∀ a, good a → good' a) : c.Reports places good' := by
  cases c with
  | ok a => exact ⟨h.1, imp a h.2⟩
  | bad issues => exact h

theorem Reports.map (g : α → β) (h : c.Reports places good) :
    (g <$> c).Reports places (fun b => ∃ a, good a ∧ b = g a) := by
  cases c with
  | ok a => exact ⟨h.1, a, h.2, rfl⟩
  | bad issues => exact h

/-- The reports of two fields add up. -/
theorem Reports.seq {accepts : (α → β) → Prop} (hf : f.Reports places accepts)
    (hc : c.Reports places' good) :
    (f <*> c).Reports (places ++ places') (fun b => ∃ g a, accepts g ∧ good a ∧ b = g a) := by
  cases f with
  | ok g =>
    obtain ⟨rfl, accepted⟩ := hf
    cases c with
    | ok a => exact ⟨hc.1, g, a, accepted, hc.2, rfl⟩
    | bad issues => exact hc
  | bad issues =>
    obtain ⟨some, rfl⟩ := hf
    cases c with
    | ok a =>
      obtain ⟨rfl, -⟩ := hc
      exact ⟨some, (List.append_nil _).symm⟩
    | bad issues' =>
      obtain ⟨-, rfl⟩ := hc
      exact ⟨by simp [some], List.map_append⟩

/-- Parts that are checked one by one are reported one behind the other. -/
theorem reports_all {check : α → Checked β} {wrong : α → List (List String)}
    {good : α → β → Prop} {parts : List α}
    (h : ∀ a ∈ parts, (check a).Reports (wrong a) (good a)) :
    (all check parts).Reports (parts.flatMap wrong) (List.Forall₂ good parts) := by
  induction parts with
  | nil => exact ⟨rfl, .nil⟩
  | cons a parts ih =>
    rw [List.forall_mem_cons] at h
    apply ((h.1.map List.cons).seq (ih h.2)).imp
    rintro _ ⟨_, bs, ⟨b, holds, rfl⟩, others, rfl⟩
    exact .cons holds others

/-- A record is refused exactly when a place is wrong, with an issue for each wrong place. -/
theorem Reports.toExcept (h : c.Reports places good) (model : Model) :
    (places = [] → ∃ a, c.toExcept model = .ok a ∧ good a) ∧
      (places ≠ [] → ∃ issues, c.toExcept model = .error (.invalid model issues) ∧
        issues.map Issue.location = places) := by
  cases c with
  | ok a =>
    obtain ⟨rfl, good⟩ := h
    exact ⟨fun _ => ⟨a, rfl, good⟩, fun wrong => absurd rfl wrong⟩
  | bad issues =>
    obtain ⟨some, rfl⟩ := h
    refine ⟨fun none => ?_, fun _ => ⟨issues, rfl, rfl⟩⟩
    exact absurd (List.map_eq_nil_iff.mp none) some

end Checked

end Reports

/-- A scalar that a page can post. -/
def Scalar.IsPosted : Scalar → Prop
  | .null | .bool _ | .int _ | .float _ | .text _ => True
  | _ => False

/-- A value that a page can post: built from such scalars, with the keys of a mapping there once. -/
structure Value.IsPosted (v : Value) : Prop where
  built : v.Built Scalar.IsPosted
  distinct : v.DistinctKeys

theorem Value.text_injective (s t : String) (h : Value.text s = .text t) : s = t := by
  cases h
  rfl

namespace Field

variable {α : Type} {data : List (String × Value)}

theorem get?_ofText (name : String) (data : List (String × Value)) :
    Entries.get? (.text name) (data.map Entries.ofText) = data.lookup name := by
  induction data with
  | nil => rfl
  | cons entry data ih =>
    obtain ⟨key, v⟩ := entry
    rw [List.map_cons, List.lookup_cons, Entries.get?, ih, Entries.ofText, Scalar.text_beq_text,
      Bool.beq_comm]
    cases name == key <;> rfl

theorem mem_of_lookup {name : String} {v : Value} (found : data.lookup name = some v) :
    (name, v) ∈ data := by
  obtain ⟨before, after, rfl, -⟩ := List.lookup_eq_some_iff.mp found
  simp

/-- The keys of posted data are names of fields. -/
theorem named_ofText (data : List (String × Value)) :
    (data.map Entries.ofText).all (fun (k, _) => (Value.scalar k).text?.isSome) = true := by
  simp [Entries.ofText, Value.text?]

theorem reports_required (name : String) {check : Check α} {wrong : Value → List (List String)}
    {good : Value → α → Prop}
    (h : ∀ v, data.lookup name = some v → (check [name] v).Reports (wrong v) (good v)) :
    (required name check (data.map Entries.ofText)).Reports
      ((data.lookup name).elim [[name]] wrong)
      (fun a => ∃ v, data.lookup name = some v ∧ good v a) := by
  unfold required
  rw [get?_ofText]
  cases found : data.lookup name with
  | none => exact Checked.reports_issue [name] .missing
  | some v => exact (h v found).imp fun a holds => ⟨v, rfl, holds⟩

theorem reports_optional (name : String) (default : α) {check : Check α}
    {wrong : Value → List (List String)} {good : Value → α → Prop}
    (h : ∀ v, data.lookup name = some v → (check [name] v).Reports (wrong v) (good v)) :
    (optional name default check (data.map Entries.ofText)).Reports
      ((data.lookup name).elim [] wrong)
      (fun a => (data.lookup name).elim (a = default) (good · a)) := by
  unfold optional
  rw [get?_ofText]
  cases found : data.lookup name with
  | none => exact ⟨rfl, rfl⟩
  | some v => exact h v found

/-- A field that is left out, or in which the right value stands, has no wrong place. -/
theorem elim_wrong {field : Option Value} {leftOut : Prop} {v : Value}
    (wrong : Value → List (List String)) (holds : field.elim leftOut (· = v))
    (right : wrong v = []) : field.elim [] wrong = [] := by
  cases field with
  | none => rfl
  | some w =>
    rw [show w = v from holds]
    exact right

/-- A field holds one thing only: its default if it is left out, and else what its value is the
form of. -/
theorem elim_unique {α : Type} {field : Option Value} {default a b : α} {form : α → Value}
    (injective : ∀ a b, form a = form b → a = b) (ha : field.elim (a = default) (· = form a))
    (hb : field.elim (b = default) (· = form b)) : a = b := by
  cases field with
  | none => exact Eq.trans ha (Eq.symm hb)
  | some v => exact injective a b ((Eq.symm ha).trans hb)

/-- The place of a value that is no text. -/
def notText (place : List String) (v : Value) : List (List String) :=
  if v.text?.isSome then [] else [place]

/-- The places of the values of a mapping that are no texts, or the place of a value that is no
mapping. -/
def notTexts (place : List String) : Value → List (List String)
  | .mapping entries => entries.flatMap fun entry => notText (place ++ [entry.1.display]) entry.2
  | _ => [place]

/-- The place of a value that is the name of no kind of credential. -/
def notKind (place : List String) (v : Value) : List (List String) :=
  if CredentialKind.all.any fun kind => v.isText kind.name then [] else [place]

theorem reports_text {v : Value} (posted : v.Built Scalar.IsPosted) (place : List String) :
    (text place v).Reports (notText place v) (v = .text ·) := by
  cases posted with
  | @scalar s leaf =>
    cases s with
    | text s => exact ⟨rfl, rfl⟩
    | bytes => exact absurd leaf id
    | _ => exact Checked.reports_issue place .notText
  | list | mapping => exact Checked.reports_issue place .notText

theorem reports_textOrNull {v : Value} (posted : v.Built Scalar.IsPosted)
    (given : v.isNull = false) (place : List String) :
    (textOrNull place v).Reports (notText place v) (some v = Option.map Value.text ·) := by
  unfold textOrNull
  rw [given]
  apply ((reports_text posted place).map some).imp
  rintro _ ⟨s, isText, rfl⟩
  rw [isText, Option.map_some]

theorem reports_kind {v : Value} (posted : v.Built Scalar.IsPosted) (place : List String) :
    (choice CredentialKind.ofName? place v).Reports (notKind place v)
      (fun kind => v = .text kind.name) := by
  have other : (∀ s, v.isText s = false) → text place v = Checked.issue place .notText →
      (choice CredentialKind.ofName? place v).Reports (notKind place v)
        (fun kind => v = .text kind.name) := by
    intro noText refused
    have wrong : notKind place v = [place] := by
      simp [notKind, noText]
    rw [wrong, choice, refused]
    exact Checked.reports_issue place .notChoice
  cases posted with
  | @scalar s leaf =>
    cases s with
    | text s =>
      have name : notKind place (.scalar (.text s)) =
          if (CredentialKind.ofName? s).isSome then [] else [place] := by
        have isText : ∀ kind : CredentialKind,
            (Value.scalar (.text s)).isText kind.name = (kind.name == s) :=
          fun kind => Bool.beq_comm
        simp only [notKind, isText, CredentialKind.ofName?, List.isSome_find?]
      rw [name]
      cases found : CredentialKind.ofName? s with
      | none =>
        simp only [choice, text, found]
        exact Checked.reports_issue place .notChoice
      | some kind =>
        have same : kind.name = s := by simpa using List.find?_some found
        simp only [choice, text, found]
        exact ⟨rfl, same ▸ rfl⟩
    | bytes => exact absurd leaf id
    | _ => exact other (fun _ => rfl) rfl
  | list | mapping => exact other (fun _ => rfl) rfl

/-- The mapping of texts. -/
def textObject (headers : List (String × String)) : Value :=
  .object (headers.map fun header => (header.1, .text header.2))

theorem notTexts_textObject (place : List String) (headers : List (String × String)) :
    notTexts place (textObject headers) = [] := by
  rw [textObject, Value.object, notTexts, List.flatMap_eq_nil_iff]
  intro entry mem
  rw [List.map_map] at mem
  obtain ⟨header, -, rfl⟩ := List.mem_map.mp mem
  rfl

theorem textObject_eq {entries : List (Scalar × Value)} {headers : List (String × String)}
    (h : List.Forall₂ (fun entry header => entry = (.text header.1, .text header.2))
      entries headers) : .mapping entries = textObject headers := by
  have same : entries = headers.map fun header => (.text header.1, .text header.2) := by
    induction h with
    | nil => rfl
    | cons here _ ih => rw [here, ih, List.map_cons]
  rw [textObject, Value.object, List.map_map, same]
  rfl

theorem textObject_injective (headers headers' : List (String × String))
    (h : textObject headers = textObject headers') : headers = headers' := by
  rw [textObject, textObject, Value.object, Value.object, List.map_map, List.map_map] at h
  refine (List.map_inj_right ?_).mp (Value.mapping.inj h)
  rintro ⟨name, value⟩ ⟨name', value'⟩ ⟨⟩
  rfl

/-- Headers with different names can be posted. -/
theorem isPosted_textObject {headers : List (String × String)}
    (nodup : (headers.map Prod.fst).Nodup) : (textObject headers).IsPosted := by
  have parts : ∀ entry ∈ headers.map (fun header => ((.text header.1, .text header.2) :
      Scalar × Value)), ∃ name value, entry = (.text name, .text value) := by
    intro entry mem
    obtain ⟨header, -, rfl⟩ := List.mem_map.mp mem
    exact ⟨_, _, rfl⟩
  have same : textObject headers = .mapping (headers.map fun header =>
      (.text header.1, .text header.2)) := by
    rw [textObject, Value.object, List.map_map]
    rfl
  rw [same]
  constructor
  · refine .mapping (fun entry mem => ?_) fun entry mem => ?_
    · obtain ⟨name, value, rfl⟩ := parts entry mem
      exact ⟨name, rfl⟩
    · obtain ⟨name, value, rfl⟩ := parts entry mem
      exact .scalar trivial
  · refine Value.distinctKeys_mapping ?_ fun entry mem => ?_
    · rw [List.map_map]
      exact List.pairwise_map.mpr
        ((List.pairwise_map.mp nodup).imp fun ne eq => ne (Scalar.text.inj eq))
    · obtain ⟨name, value, rfl⟩ := parts entry mem
      exact Value.distinctKeys_scalar _

theorem reports_header {entry : Scalar × Value} (key : ∃ s, entry.1 = .text s)
    (posted : entry.2.Built Scalar.IsPosted) (place : List String) :
    (Prod.mk <$> textKey place entry.1 <*> text (place ++ [entry.1.display]) entry.2).Reports
      (notText (place ++ [entry.1.display]) entry.2)
      (fun header => entry = (.text header.1, .text header.2)) := by
  obtain ⟨s, isText⟩ := key
  have name : (textKey place entry.1).Reports [] (entry.1 = .text ·) := by
    rw [isText]
    exact ⟨rfl, rfl⟩
  apply ((name.map Prod.mk).seq (reports_text posted _)).imp
  rintro _ ⟨_, t, ⟨s, isName, rfl⟩, isText, rfl⟩
  exact Prod.ext isName isText

/-- A mapping of texts is read as it is. -/
theorem reports_textMapping {v : Value} (posted : v.IsPosted) (place : List String) :
    (textMapping place v).Reports (notTexts place v) (v = textObject ·) := by
  obtain ⟨built, distinct⟩ := posted
  cases built with
  | scalar | list => exact Checked.reports_issue place .notMapping
  | @mapping entries keys built =>
    have parts := Checked.reports_all fun entry mem =>
      reports_header (keys entry mem) (built entry mem) place
    apply (parts.map Entries.ofPairs).imp
    rintro _ ⟨headers, holds, rfl⟩
    have same := textObject_eq holds
    have nodup : (headers.map Prod.fst).Nodup := by
      have nodup := distinct.nodup
      rw [Value.mapping.inj same, List.map_map, List.map_map] at nodup
      exact List.pairwise_map.mpr
        ((List.pairwise_map.mp nodup).imp fun ne eq => ne (congrArg Scalar.text eq))
    rw [Entries.ofPairs_of_nodup nodup, same]

end Field

namespace Request

/-- The places of posted data that keep it from being a request. -/
def wrongPlaces (data : List (String × Value)) : List (List String) :=
  (data.lookup "method").elim [] (Field.notText ["method"])
    ++ (data.lookup "url").elim [["url"]] (Field.notText ["url"])
    ++ (data.lookup "headers").elim [] (Field.notTexts ["headers"])
    ++ (data.lookup "body").elim [] (Field.notText ["body"])

/-- The request stands in the data, each field that is left out with its default. -/
structure StandsIn (r : Request) (data : List (String × Value)) : Prop where
  method : (data.lookup "method").elim (r.method = "GET") (· = .text r.method)
  url : data.lookup "url" = some (.text r.url)
  headers : (data.lookup "headers").elim (r.headers = []) (· = Field.textObject r.headers)
  body : data.lookup "body" = r.body.map .text

/-- What is left of posted data when the fields that are null are dropped. -/
def given (data : List (String × Value)) : List (String × Value) :=
  data.filter fun field => !field.2.isNull

theorem reports_check {data : List (String × Value)} (posted : ∀ field ∈ data, field.2.IsPosted)
    (noNull : ∀ field ∈ data, field.2.isNull = false) :
    (check (data.map Entries.ofText)).Reports (wrongPlaces data) (·.StandsIn data) := by
  have method := Field.reports_optional "method" "GET" fun v found =>
    Field.reports_text (posted _ (Field.mem_of_lookup found)).built ["method"]
  have url := Field.reports_required "url" fun v found =>
    Field.reports_text (posted _ (Field.mem_of_lookup found)).built ["url"]
  have headers := Field.reports_optional "headers" [] fun v found =>
    Field.reports_textMapping (posted _ (Field.mem_of_lookup found)) ["headers"]
  have body := Field.reports_optional "body" none fun v found =>
    have mem := Field.mem_of_lookup found
    Field.reports_textOrNull (posted _ mem).built (noNull _ mem) ["body"]
  apply ((((method.map Request.mk).seq url).seq headers).seq body).imp
  rintro _ ⟨_, b, ⟨_, h, ⟨_, u, ⟨m, methodHolds, rfl⟩, ⟨_, found, rfl⟩, rfl⟩, headersHold, rfl⟩,
    bodyHolds, rfl⟩
  refine ⟨methodHolds, found, headersHold, ?_⟩
  cases found : data.lookup "body" with
  | none =>
    rw [found] at bodyHolds
    rw [show b = none from bodyHolds]
    rfl
  | some v =>
    rw [found] at bodyHolds
    exact bodyHolds

/-- A posted request is refused exactly when a place of what is given is wrong, with an issue for
each wrong place; otherwise it stands in what is given. -/
theorem ofPosted_object {data : List (String × Value)} (posted : ∀ field ∈ data, field.2.IsPosted) :
    (wrongPlaces (given data) = [] →
        ∃ r, ofPosted (.object data) = .ok r ∧ r.StandsIn (given data)) ∧
      (wrongPlaces (given data) ≠ [] →
        ∃ issues, ofPosted (.object data) = .error (.invalid .request issues) ∧
          issues.map Issue.location = wrongPlaces (given data)) := by
  have left : (data.map Entries.ofText).filter (fun (_, v) => !v.isNull) =
      (given data).map Entries.ofText := by
    rw [List.filter_map]
    rfl
  have read : ofPosted (.object data) = ofFields ((given data).map Entries.ofText) := by
    change ofValue (.mapping ((data.map Entries.ofText).filter fun (_, v) => !v.isNull)) = _
    rw [left, ofValue, Field.ofMapping, if_pos (Field.named_ofText _)]
    rfl
  rw [read]
  apply (reports_check ?_ ?_).toExcept
  · intro field mem
    exact posted field (List.mem_filter.mp mem).1
  · intro field mem
    simpa using (List.mem_filter.mp mem).2

/-- A request stands in what is given exactly when no place of it is wrong. -/
theorem standsIn_iff {data : List (String × Value)} (posted : ∀ field ∈ data, field.2.IsPosted) :
    (∃ r : Request, r.StandsIn (given data)) ↔ wrongPlaces (given data) = [] := by
  constructor
  · rintro ⟨r, method, url, headers, body⟩
    have first := Field.elim_wrong (Field.notText ["method"]) method rfl
    have third := Field.elim_wrong (Field.notTexts ["headers"]) headers
      (Field.notTexts_textObject ["headers"] r.headers)
    rw [wrongPlaces, first, url, third, body]
    cases r.body <;> rfl
  · intro right
    obtain ⟨r, -, standsIn⟩ := (ofPosted_object posted).1 right
    exact ⟨r, standsIn⟩

/-- At most one request stands in the data. -/
theorem StandsIn.unique {r r' : Request} {data : List (String × Value)} (h : r.StandsIn data)
    (h' : r'.StandsIn data) : r = r' := by
  have method := Field.elim_unique Value.text_injective h.method h'.method
  have url := h.url.symm.trans h'.url
  have headers := Field.elim_unique Field.textObject_injective h.headers h'.headers
  have body := h.body.symm.trans h'.body
  obtain ⟨_, _, _, _⟩ := r
  obtain ⟨_, _, _, _⟩ := r'
  cases method
  cases url
  cases headers
  cases Option.map_injective Value.text_injective body
  rfl

/-- Posted data in which a request stands is read as that request. -/
theorem ofPosted_of_standsIn {r : Request} {data : List (String × Value)}
    (posted : ∀ field ∈ data, field.2.IsPosted) (h : r.StandsIn (given data)) :
    ofPosted (.object data) = .ok r := by
  obtain ⟨r', read, standsIn⟩ := (ofPosted_object posted).1 ((standsIn_iff posted).mp ⟨r, h⟩)
  rw [read, standsIn.unique h]

end Request

theorem CredentialKind.name_injective (kind kind' : CredentialKind)
    (h : kind.name = kind'.name) : kind = kind' := by
  revert h
  cases kind <;> cases kind' <;> decide

namespace Credential

/-- The places of posted data that keep it from being a credential. -/
def wrongPlaces (data : List (String × Value)) : List (List String) :=
  (data.lookup "type").elim [["type"]] (Field.notKind ["type"])
    ++ (data.lookup "value").elim [] (Field.notText ["value"])

/-- The credential stands in the data, its value empty if that is left out. -/
structure StandsIn (c : Credential) (data : List (String × Value)) : Prop where
  kind : data.lookup "type" = some (.text c.kind.name)
  value : (data.lookup "value").elim (c.value = "") (· = .text c.value)

theorem reports_check {data : List (String × Value)}
    (posted : ∀ field ∈ data, field.2.IsPosted) :
    (check (data.map Entries.ofText)).Reports (wrongPlaces data) (·.StandsIn data) := by
  have kind := Field.reports_required "type" fun v found =>
    Field.reports_kind (posted _ (Field.mem_of_lookup found)).built ["type"]
  have value := Field.reports_optional "value" "" fun v found =>
    Field.reports_text (posted _ (Field.mem_of_lookup found)).built ["value"]
  apply ((kind.map Credential.mk).seq value).imp
  rintro _ ⟨_, s, ⟨kind, ⟨_, found, rfl⟩, rfl⟩, holds, rfl⟩
  exact ⟨found, holds⟩

/-- A posted credential is refused exactly when one of its places is wrong, with an issue for each
wrong place; otherwise it stands in what was posted. -/
theorem ofPosted_object {data : List (String × Value)} (posted : ∀ field ∈ data, field.2.IsPosted) :
    (wrongPlaces data = [] → ∃ c, ofPosted (.object data) = .ok (some c) ∧ c.StandsIn data) ∧
      (wrongPlaces data ≠ [] →
        ∃ issues, ofPosted (.object data) = .error (.invalid .credential issues) ∧
          issues.map Issue.location = wrongPlaces data) := by
  have read : ofPosted (.object data) =
      some <$> (check (data.map Entries.ofText)).toExcept .credential := by
    change some <$> ofValue (.mapping (data.map Entries.ofText)) = _
    rw [ofValue, Field.ofMapping, if_pos (Field.named_ofText data)]
    rfl
  obtain ⟨holds, fails⟩ := (reports_check posted).toExcept .credential
  rw [read]
  constructor
  · intro right
    obtain ⟨c, eq, standsIn⟩ := holds right
    exact ⟨c, by rw [eq]; rfl, standsIn⟩
  · intro wrong
    obtain ⟨issues, eq, places⟩ := fails wrong
    exact ⟨issues, by rw [eq]; rfl, places⟩

/-- A credential stands in what was posted exactly when no place of it is wrong. -/
theorem standsIn_iff {data : List (String × Value)} (posted : ∀ field ∈ data, field.2.IsPosted) :
    (∃ c : Credential, c.StandsIn data) ↔ wrongPlaces data = [] := by
  constructor
  · rintro ⟨⟨kind, value⟩, type, holds⟩
    have second := Field.elim_wrong (Field.notText ["value"]) holds rfl
    rw [wrongPlaces, type, second]
    cases kind <;> rfl
  · intro right
    obtain ⟨c, -, standsIn⟩ := (ofPosted_object posted).1 right
    exact ⟨c, standsIn⟩

/-- At most one credential stands in the data. -/
theorem StandsIn.unique {c c' : Credential} {data : List (String × Value)} (h : c.StandsIn data)
    (h' : c'.StandsIn data) : c = c' := by
  have value := Field.elim_unique Value.text_injective h.value h'.value
  have kind := h.kind.symm.trans h'.kind
  have same := CredentialKind.name_injective _ _ (Value.text_injective _ _ (Option.some.inj kind))
  obtain ⟨_, _⟩ := c
  obtain ⟨_, _⟩ := c'
  cases value
  cases same
  rfl

/-- Posted data in which a credential stands is read as that credential. -/
theorem ofPosted_of_standsIn {c : Credential} {data : List (String × Value)}
    (posted : ∀ field ∈ data, field.2.IsPosted) (h : c.StandsIn data) :
    ofPosted (.object data) = .ok (some c) := by
  obtain ⟨c', read, standsIn⟩ := (ofPosted_object posted).1 ((standsIn_iff posted).mp ⟨c, h⟩)
  rw [read, standsIn.unique h]

/-- What is read as a credential has it. -/
theorem standsIn_of_ofPosted {c : Credential} {data : List (String × Value)}
    (posted : ∀ field ∈ data, field.2.IsPosted) (h : ofPosted (.object data) = .ok (some c)) :
    c.StandsIn data := by
  obtain ⟨right, wrong⟩ := ofPosted_object posted
  by_cases none : wrongPlaces data = []
  · obtain ⟨c', read, standsIn⟩ := right none
    cases h.symm.trans read
    exact standsIn
  · obtain ⟨issues, read, -⟩ := wrong none
    cases h.symm.trans read

section Halves

variable {data : Marked (List (String × Value))} {c : Credential}

/-- A basic credential can be encoded if it is the same with either mark. Other credentials are
sent as they are. -/
theorem encodable_spec (given : Marked (Option Credential)) (h : given Marked.firstMark = some c) :
    (c.kind = .basic ∧ given Marked.secondMark ≠ some c → encodable given = .error .notEncodable) ∧
    (¬(c.kind = .basic ∧ given Marked.secondMark ≠ some c) → encodable given = .ok (some c)) := by
  have refused : ((some c).any (·.kind = .basic) && !Marked.isWhole given) = true ↔
      c.kind = .basic ∧ given Marked.secondMark ≠ some c := by
    rw [ne_comm]
    simp [Marked.isWhole, h]
  rw [encodable, h, ← refused]
  exact ⟨fun h => if_pos h, fun h => if_neg h⟩

/-- A credential that is posted is the same with either mark if it stands in what is posted with
either one. -/
theorem ofMarked_of_standsIn (posted : ∀ mark, ∀ field ∈ data mark, field.2.IsPosted)
    (h : c.StandsIn (data Marked.firstMark)) :
    (c.kind = .basic ∧ ¬c.StandsIn (data Marked.secondMark) →
      ofMarked (fun mark => .object (data mark)) = .error .notEncodable) ∧
    (¬(c.kind = .basic ∧ ¬c.StandsIn (data Marked.secondMark)) →
      ofMarked (fun mark => .object (data mark)) = .ok (some c)) := by
  have first := ofPosted_of_standsIn (posted Marked.firstMark) h
  let given : Marked (Option Credential) := fun mark =>
    (ofPosted (.object (data mark))).toOption.join
  have same : given Marked.secondMark ≠ some c ↔ ¬c.StandsIn (data Marked.secondMark) := by
    refine not_congr ⟨fun read => ?_, fun standsIn => ?_⟩
    · have posted' := Chain.ok_of_toOption (Option.join_eq_some_iff.mp read)
      exact standsIn_of_ofPosted (posted Marked.secondMark) posted'
    · simp only [given, ofPosted_of_standsIn (posted Marked.secondMark) standsIn]
      rfl
  have read : ofMarked (fun mark => .object (data mark)) = encodable given := by
    rw [ofMarked, first]
    rfl
  have found : given Marked.firstMark = some c := by
    simp only [given, first]
    rfl
  rw [read, ← same]
  exact encodable_spec given found

/-- What is no credential is refused as it is without marks. -/
theorem ofMarked_of_error (posted : Marked Value) {fault : Fault}
    (h : ofPosted (posted Marked.firstMark) = .error fault) : ofMarked posted = .error fault := by
  rw [ofMarked, h]
  rfl

end Halves

end Credential

end RequestWriter
