import RequestWriter.Proofs.Snippet.Containment
import RequestWriter.Proofs.Chain
import RequestWriter.Catalog

/-!
# Names of the catalog

A name finds the language whose name it is in lower case. The catalog and the emitter of a language
list its libraries apart from each other, and they list the same ones. So whatever library is chosen
for a language, its emitter knows it, and writing code ends with a snippet once the language is
known and code can be written for it.
-/

namespace RequestWriter

namespace Catalog

variable {l : Language} {emitter : Emitter} {library : Library}

/-- What has a key of its own is found by it. -/
theorem find?_key {α : Type} {key : α → String} (injective : ∀ a b, key a = key b → a = b)
    {xs : List α} {a : α} (mem : a ∈ xs) : (xs.find? fun b => key b == key a) = some a := by
  cases found : xs.find? fun b => key b == key a with
  | none =>
    have none := List.find?_eq_none.mp found a mem
    simp at none
  | some b =>
    have same : key b = key a := by simpa using List.find?_some found
    rw [injective b a same]

theorem mem_all (l : Language) : l ∈ Language.all := by
  cases l <;> decide

theorem id_injective (l l' : Language) (h : l.id = l'.id) : l = l' := by
  revert h
  cases l <;> cases l' <;> decide

theorem lookup_of_id {name : String} (h : l.id = Text.lower name) : lookup name = .ok l := by
  have found := find?_key id_injective (mem_all l)
  rw [lookup, ← h, found]

theorem lookup_of_forall {name : String} (h : ∀ l : Language, l.id ≠ Text.lower name) :
    lookup name = .error (.unsupportedLanguage name (Language.all.map Language.id)) := by
  have absent : Language.all.find? (fun l => l.id == Text.lower name) = none :=
    List.find?_eq_none.mpr fun l _ => by simpa using h l
  rw [lookup, absent]

/-- The name that is taken for the name that is asked for: that name in lower case, if the catalog
lists it for the language, and the first one of the language if not. -/
def offered (l : Language) (variant : Option String) : String :=
  match variant with
  | some v => if Text.lower v ∈ l.variants then Text.lower v else l.spec.defaultVariant
  | none => l.spec.defaultVariant

theorem empty_unlisted (l : Language) : Text.lower "" ∉ l.variants := by
  cases l <;> decide

theorem offered_mem (l : Language) (variant : Option String) : offered l variant ∈ l.variants := by
  have default : l.spec.defaultVariant ∈ l.variants := by cases l <;> decide
  unfold offered
  split
  · split_ifs with listed
    · exact listed
    · exact default
  · exact default

/-- The emitter of a language knows every library that the catalog lists, and no other one. -/
theorem emitter_eq_variants (h : l.emitter? = some emitter) :
    emitter.map Prod.fst = l.variants := by
  cases l <;> cases h <;> rfl

/-- An emitter finds what it has. -/
theorem library_of_mem {name : String} (mem : name ∈ emitter.map Prod.fst) :
    ∃ library, (name, library) ∈ emitter ∧ emitter.library (.text name) = .ok library := by
  cases found : emitter.find? fun entry => Scalar.text entry.1 == .text name with
  | none =>
    obtain ⟨entry, known, rfl⟩ := List.mem_map.mp mem
    have other := List.find?_eq_none.mp found entry known
    simp at other
  | some entry =>
    have same : entry.1 = name := by simpa using List.find?_some found
    refine ⟨entry.2, same ▸ List.mem_of_find?_eq_some found, ?_⟩
    simp only [Emitter.library, Value.text, found]

/-- The library that is offered is found. -/
theorem library_offered (h : l.emitter? = some emitter) (variant : Option String) :
    ∃ library, (offered l variant, library) ∈ emitter ∧
      emitter.library (.text (offered l variant)) = .ok library :=
  library_of_mem (emitter_eq_variants h ▸ offered_mem l variant)

theorem result_choose (l : Language) (variant : Option String) :
    (choose l.spec variant).result = .ok (offered l variant) := by
  have listed (v : String) :
      l.spec.variants.contains (Text.lower v) = decide (Text.lower v ∈ l.variants) :=
    List.contains_eq_mem _ _
  cases variant with
  | none =>
    rw [choose, Option.getD_none, listed, if_neg (by simpa using empty_unlisted l)]
    rfl
  | some v =>
    rw [choose, Option.getD_some, listed, offered]
    by_cases found : Text.lower v ∈ l.variants
    · rw [if_pos (by simpa using found), if_pos found]
      rfl
    · rw [if_neg (by simpa using found), if_neg found]
      split <;> rfl

/-- An empty name, like null, is read as no name. -/
theorem variantOf_elim (variant : Option String) :
    variantOf (variant.elim .null .text) = .ok (variant.filter (· != "")) := by
  cases variant with
  | none => rfl
  | some v =>
    rw [Option.elim_some, variantOf, Option.filter_some]
    by_cases empty : v = "" <;> simp [Value.text, Value.truthy, Scalar.truthy, Value.text?, empty]

/-- An empty name is passed over without a record. -/
theorem choose_filter (l : Language) (variant : Option String) :
    choose l.spec (variant.filter (· != "")) = choose l.spec variant := by
  cases variant with
  | none => rfl
  | some v =>
    by_cases empty : v = ""
    · subst empty
      rfl
    · rw [Option.filter_some, if_pos (by simpa using empty)]

variable {language : String}

theorem result_resolve_unknown (h : ∀ l : Language, l.id ≠ Text.lower language)
    (variant : Option String) : (resolve language variant).result =
      .error (.unsupportedLanguage language (Language.all.map Language.id)) := by
  simp [resolve, lookup_of_forall h]

theorem result_resolve_unwritten (named : l.id = Text.lower language)
    (h : l.emitter? = none) (variant : Option String) :
    (resolve language variant).result = .error (.notImplemented l.id) := by
  simp [resolve, lookup_of_id named, Catalog.emitter, h]

/-- Names that a page gives as texts are resolved like the names themselves. -/
theorem resolveLoose_text (language : String) (variant : Option String) :
    resolveLoose (.text language) (variant.elim .null .text) = resolve language variant := by
  rw [resolveLoose, resolve, variantOf_elim]
  change (Logged.lift (lookup language) >>= fun l => Logged.lift (Catalog.emitter l) >>=
    fun emitter => choose l.spec (variant.filter (· != "")) >>= fun chosen =>
      pure (l, chosen, emitter)) = _
  simp only [choose_filter]
  rfl

/-- The library is the one that is offered. -/
theorem result_resolve (named : l.id = Text.lower language) (h : l.emitter? = some emitter)
    (variant : Option String) :
    (resolve language variant).result = .ok (l, offered l variant, emitter) := by
  simp [resolve, lookup_of_id named, Catalog.emitter, h, result_choose]

/-- Code is written by the library that the emitter has under the name that is offered. -/
theorem result_generate_of_library (named : l.id = Text.lower language)
    (h : l.emitter? = some emitter) {variant : Option String}
    (found : emitter.library (.text (offered l variant)) = .ok library) (r : Request)
    (headers : Headers) : (generate language variant r headers).result =
      .ok ⟨l.id, offered l variant, library.source r headers⟩ := by
  simp [generate, result_resolve named h, found, library.result_emit]

/-- Whether code is written depends on the name of the language alone. It fails with a message, and
before anything is recorded. -/
theorem generate_cases (language : String) (variant : Option String) :
    (∃ fault message, Fault.message? fault = some message ∧
      ∀ r headers, generate language variant r headers = Logged.fail fault) ∨
    ∃ (l : Language) (library : Library), ∀ r headers,
      (generate language variant r headers).result =
        .ok ⟨l.id, offered l variant, library.source r headers⟩ := by
  by_cases known : ∃ l : Language, l.id = Text.lower language
  · obtain ⟨l, named⟩ := known
    cases found : l.emitter? with
    | none =>
      have unwritten : Catalog.emitter l = .error (.notImplemented l.id) := by
        rw [Catalog.emitter, found]
      have resolved : resolve language variant = Logged.fail (.notImplemented l.id) := by
        rw [resolve, lookup_of_id named]
        change (Logged.lift (Catalog.emitter l) >>= _) = _
        rw [unwritten]
        rfl
      refine .inl ⟨.notImplemented l.id, _, rfl, fun r headers => ?_⟩
      rw [generate, resolved]
      rfl
    | some emitter =>
      obtain ⟨library, -, has⟩ := library_offered found variant
      exact .inr ⟨l, library, result_generate_of_library named found has⟩
  · rw [not_exists] at known
    refine .inl ⟨.unsupportedLanguage language (Language.all.map Language.id), _, rfl,
      fun r headers => ?_⟩
    rw [generate, resolve, lookup_of_forall known]
    rfl

end Catalog

end RequestWriter
