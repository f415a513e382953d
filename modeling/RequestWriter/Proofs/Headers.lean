import RequestWriter.Headers
import RequestWriter.Proofs.Chain
import RequestWriter.Proofs.Entries

/-!
# What sending changes in the headers

The headers of a request are a mapping in order, and two headers are put into it: a content type,
which stands first and gives way to the caller's, and the header of a credential, which does not.
Every other name keeps its place among the others and its value, and sending what is already
prepared changes nothing.
-/

namespace RequestWriter

namespace Headers

/-- The header of a credential that is given and not empty. -/
def credentialHeader? (c : Option Credential) : Option (String × String) :=
  (c.filter fun c => c.value != "").map Credential.header

variable {h : Headers} {c d : Option Credential} {v : Value}

theorem inject_eq (h : Headers) (c : Option Credential) :
    inject h c = (credentialHeader? c).elim h fun header => Entries.put header.1 header.2 h := by
  cases c with
  | none => rfl
  | some c =>
    rw [inject, credentialHeader?, Option.filter_some]
    by_cases empty : c.value = ""
    · rw [if_pos empty, if_neg (by simpa using empty)]
      rfl
    · rw [if_neg empty, if_pos (by simpa using empty)]
      rfl

theorem credentialHeader?_ne {header : String × String}
    (given : credentialHeader? c = some header) :
    header.1 ≠ "Content-Type" := by
  obtain ⟨⟨kind, value⟩, -, rfl⟩ := Option.map_eq_some_iff.mp given
  cases kind <;> simp [Credential.header]

theorem keys_withDefaultContentType (nodup : (Entries.keys h).Nodup) :
    Entries.keys (withDefaultContentType h) =
      "Content-Type" :: (Entries.keys h).filter (· ≠ "Content-Type") := by
  rw [withDefaultContentType, Entries.keys_overlay nodup]
  simp [Entries.keys, defaultContentType]

theorem get?_withDefaultContentType (nodup : (Entries.keys h).Nodup) (name : String) :
    Entries.get? name (withDefaultContentType h) =
      (Entries.get? name h).or (Entries.get? name [defaultContentType]) :=
  Entries.get?_overlay nodup name _

/-- The names that are sent. -/
theorem keys_prepare (nodup : (Entries.keys h).Nodup) (c : Option Credential) :
    Entries.keys (prepare h c) = "Content-Type" :: ((Entries.keys h).filter (· ≠ "Content-Type") ++
      ((credentialHeader? c).toList.map Prod.fst).filter (· ∉ Entries.keys h)) := by
  rw [prepare, inject_eq]
  cases given : credentialHeader? c with
  | none => simp [keys_withDefaultContentType nodup]
  | some header =>
    have other := credentialHeader?_ne given
    rw [Option.elim_some, Entries.keys_put, keys_withDefaultContentType nodup]
    have there : Entries.has header.1 (withDefaultContentType h) = true ↔
        header.1 ∈ Entries.keys h := by
      rw [Entries.has_iff, keys_withDefaultContentType nodup]
      simp [other]
    by_cases mem : header.1 ∈ Entries.keys h
    · simp [there, mem]
    · simp [there, mem]

/-- What is sent is left by assignments: the default, the caller's, and that of the credential. -/
theorem prepare_eq_ofPairs (h : Headers) (c : Option Credential) :
    prepare h c =
      Entries.ofPairs (defaultContentType :: h ++ (credentialHeader? c).toList) := by
  rw [prepare, inject_eq]
  cases credentialHeader? c with
  | none =>
    rw [Option.toList_none, List.append_nil]
    rfl
  | some header => exact (Entries.ofPairs_concat (defaultContentType :: h) header).symm

theorem nodup_prepare (h : Headers) (c : Option Credential) :
    (Entries.keys (prepare h c)).Nodup := by
  rw [prepare_eq_ofPairs]
  exact Entries.nodup_ofPairs _

theorem get?_prepare (nodup : (Entries.keys h).Nodup) (c : Option Credential) (name : String) :
    Entries.get? name (prepare h c) =
      (((credentialHeader? c).filter fun header => header.1 == name).map Prod.snd).or
        ((Entries.get? name h).or (Entries.get? name [defaultContentType])) := by
  rw [prepare, inject_eq]
  cases given : credentialHeader? c with
  | none => exact get?_withDefaultContentType nodup name
  | some header =>
    rw [Option.elim_some, Entries.get?_put (Entries.exact_of_lawful _),
      get?_withDefaultContentType nodup, Option.filter_some]
    by_cases here : (header.1 == name) = true
    · rw [if_pos here, if_pos here]
      rfl
    · rw [if_neg here, if_neg here]
      rfl

/-- A mapping that begins with a content type needs no other one. -/
theorem withDefaultContentType_of_head {value : String} {rest : Headers}
    (nodup : (Entries.keys (("Content-Type", value) :: rest)).Nodup) :
    withDefaultContentType (("Content-Type", value) :: rest) = ("Content-Type", value) :: rest :=
  Entries.ofPairs_of_nodup nodup

/-- The header of a credential takes the place of one with its name that was put before. -/
theorem prepare_prepare (nodup : (Entries.keys h).Nodup)
    (same : (credentialHeader? c).map Prod.fst = (credentialHeader? d).map Prod.fst) :
    prepare (prepare h c) d = prepare h d := by
  have settled : withDefaultContentType (prepare h c) = prepare h c := by
    have keys := keys_prepare nodup c
    have once := nodup_prepare h c
    cases sent : prepare h c with
    | nil =>
      rw [sent] at keys
      cases keys
    | cons first rest =>
      obtain ⟨name, value⟩ := first
      rw [sent] at keys once
      obtain rfl : name = "Content-Type" := (List.cons.inj keys).1
      exact withDefaultContentType_of_head once
  rw [prepare, settled, prepare, prepare, inject_eq, inject_eq, inject_eq]
  cases first : credentialHeader? c with
  | none => rfl
  | some header =>
    rw [first] at same
    obtain ⟨header', second, name⟩ := Option.map_eq_some_iff.mp same.symm
    rw [second, Option.elim_some, Option.elim_some, Option.elim_some, name, Entries.put_put]

/-- The entries of a mapping of texts. -/
def entries (h : Headers) : LooseHeaders := h.map fun header => (.text header.1, .text header.2)

theorem put_entries (name value : String) (h : Headers) :
    Entries.put (.text name) (.text value) h.entries = entries (Entries.put name value h) :=
  Entries.put_map_key Scalar.text_beq_text Value.text name value h

theorem overlay_entries (base extra : Headers) :
    Entries.overlay base.entries extra.entries = entries (Entries.overlay base extra) :=
  Entries.overlay_map_key Scalar.text_beq_text Value.text base extra

/-- The headers with which a page asks for a request: a mapping of texts with different names, or
null for none. -/
inductive Posted : Value → Headers → Prop
  | absent : Posted .null []
  | mapping {h : Headers} (nodup : (Entries.keys h).Nodup) : Posted (.mapping h.entries) h

theorem Posted.nodup (posted : Posted v h) : (Entries.keys h).Nodup := by
  cases posted with
  | absent => exact List.nodup_nil
  | mapping nodup => exact nodup

/-- A page is sent the headers that its own are prepared to. -/
theorem Posted.prepare_eq (posted : Posted v h) (c : Option Credential) :
    LooseHeaders.prepare v (.ok c) = .ok (prepare h c).entries := by
  have typed : LooseHeaders.withDefaultContentType v = .ok (withDefaultContentType h).entries := by
    cases posted with
    | absent => rfl
    | mapping nodup =>
      cases h with
      | nil => rfl
      | cons header rest => exact congrArg Except.ok (overlay_entries [defaultContentType] _)
  have copied : ∀ h : Headers, LooseHeaders.copy (.mapping h.entries) = .ok h.entries := by
    rintro (_ | _) <;> rfl
  rw [LooseHeaders.prepare, typed, Logged.ok_bind, LooseHeaders.inject, copied, Logged.ok_bind,
    Logged.ok_bind, prepare]
  cases c with
  | none => rfl
  | some c =>
    rw [inject]
    dsimp only
    by_cases empty : c.value = ""
    · rw [if_pos empty, if_pos empty]
      rfl
    · rw [if_neg empty, if_neg empty]
      exact congrArg Except.ok (put_entries _ _ _)

/-- What is to be sent for the headers `h` and a credential. -/
structure Sent (h : Headers) (c : Option Credential) (sent : Headers) : Prop where
  /-- The content type stands first, and a new name for the credential last. -/
  keys : Entries.keys sent = "Content-Type" ::
    ((Entries.keys h).filter (· ≠ "Content-Type") ++
      ((credentialHeader? c).toList.map Prod.fst).filter (· ∉ Entries.keys h))
  once : (Entries.keys sent).Nodup
  /-- Only a header with this very name gives another content type. -/
  contentType : Entries.get? "Content-Type" sent =
    some ((Entries.get? "Content-Type" h).getD "application/json")
  credential : ∀ header, credentialHeader? c = some header →
    Entries.get? header.1 sent = some header.2
  others : ∀ name, name ≠ "Content-Type" →
    (∀ header, credentialHeader? c = some header → name ≠ header.1) →
      Entries.get? name sent = Entries.get? name h

theorem sent_prepare (nodup : (Entries.keys h).Nodup) (c : Option Credential) :
    Sent h c (prepare h c) where
  keys := keys_prepare nodup c
  once := nodup_prepare h c
  contentType := by
    have other : (credentialHeader? c).filter (fun header => header.1 == "Content-Type") = none :=
      Option.filter_eq_none_iff.mpr fun header given =>
        by simpa using credentialHeader?_ne given
    rw [get?_prepare nodup, other]
    cases Entries.get? "Content-Type" h <;> rfl
  credential := by
    intro header given
    rw [get?_prepare nodup, given, Option.filter_some, if_pos (beq_self_eq_true _)]
    rfl
  others := by
    intro name noType noCredential
    have other : (credentialHeader? c).filter (fun header => header.1 == name) = none :=
      Option.filter_eq_none_iff.mpr fun header given =>
        by simpa using (noCredential header given).symm
    have default : Entries.get? name [defaultContentType] = none :=
      Entries.get?_eq_none_of_notMem (by simpa [Entries.keys, defaultContentType] using noType)
    rw [get?_prepare nodup, other, default, Option.or_none]
    rfl

/-- Sending adds a content type and sets the header of the credential, and it does so once: what is
prepared already is sent as it is, and another credential of the same header replaces the first. -/
theorem prepare_frame (posted : Posted v h) (c : Option Credential) :
    LooseHeaders.prepare v (.ok c) = .ok (prepare h c).entries ∧ Sent h c (prepare h c) ∧
      LooseHeaders.prepare (.mapping (prepare h c).entries) (.ok c) = .ok (prepare h c).entries ∧
      ∀ d, (credentialHeader? c).map Prod.fst = (credentialHeader? d).map Prod.fst →
        LooseHeaders.prepare (.mapping (prepare h c).entries) (.ok d) =
          .ok (prepare h d).entries := by
  have again : ∀ d, (credentialHeader? c).map Prod.fst = (credentialHeader? d).map Prod.fst →
      LooseHeaders.prepare (.mapping (prepare h c).entries) (.ok d) =
        .ok (prepare h d).entries := by
    intro d same
    rw [(Posted.mapping (nodup_prepare h c)).prepare_eq d, prepare_prepare posted.nodup same]
  exact ⟨posted.prepare_eq c, sent_prepare posted.nodup c, again c rfl, again⟩

/-- A page that sets its own content type, another spelling of it and the header of the token. -/
theorem prepare_frame_token :
    let h : Headers := [("Accept", "*/*"), ("Authorization", "none"), ("content-type", "a/b"),
      ("Content-Type", "text/plain")]
    let c : Credential := ⟨.bearer, "t"⟩
    Posted (.mapping h.entries) h ∧ Sent h (some c) (prepare h (some c)) ∧
      prepare h (some c) = [("Content-Type", "text/plain"), ("Accept", "*/*"),
        ("Authorization", "Bearer t"), ("content-type", "a/b")] := by
  have posted := Posted.mapping (h := [("Accept", "*/*"), ("Authorization", "none"),
    ("content-type", "a/b"), ("Content-Type", "text/plain")]) (by decide)
  exact ⟨posted, (prepare_frame posted (some ⟨.bearer, "t"⟩)).2.1, by decide⟩

end Headers

end RequestWriter
