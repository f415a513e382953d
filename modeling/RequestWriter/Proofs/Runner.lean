import RequestWriter.Proofs.Catalog
import RequestWriter.Proofs.Checked
import RequestWriter.Runner

/-!
# Replies to the documentation page

The first check that fails decides the message of the reply: of the request, of the credential, of
the name of the language, and whether code can be written for it. When none of them fails, nothing
that comes later can: the emitter knows the library that the catalog names, and writing code for a
request that was read leaves records only. One defect comes in between. The value of a basic
credential is encoded for its header, and a lone half in it cannot be.
-/

namespace RequestWriter

namespace Runner

/-- What comes along with a request: no credential, one that was read before, or one as a page
posts it. Either may hold lone halves. -/
inductive Auth where
  | absent
  | read (c : Marked Credential)
  | posted (data : Marked (List (String × Value)))

namespace Auth

/-- The credential, or why there is none to go by. -/
def credential : Auth → Except Fault (Option Credential)
  | .absent => .ok none
  | .read c => Credential.encodable fun mark => some (c mark)
  | .posted data => Credential.ofMarked fun mark => .object (data mark)

/-- Whether a page can post it. -/
def IsPosted : Auth → Prop
  | .posted data => ∀ mark, ∀ field ∈ data mark, field.2.IsPosted
  | _ => True

/-- The places that keep it from being a credential. -/
def wrongPlaces : Auth → List (List String)
  | .posted data => Credential.wrongPlaces (data Marked.firstMark)
  | _ => []

/-- Which credential it stands for. -/
def Gives : Auth → Option Credential → Prop
  | .absent, given => given = none
  | .read c, given => given = some (c Marked.firstMark)
  | .posted data, given => ∃ c, given = some c ∧ c.StandsIn (data Marked.firstMark)

/-- Whether it is a basic credential with a lone half in its value: another mark gives another
credential. -/
def NamesHalf : Auth → Prop
  | .absent => False
  | .read c => (c Marked.firstMark).kind = .basic ∧ c Marked.secondMark ≠ c Marked.firstMark
  | .posted data => ∃ c : Credential, c.StandsIn (data Marked.firstMark) ∧ c.kind = .basic ∧
      ¬c.StandsIn (data Marked.secondMark)

theorem credential_of_namesHalf {auth : Auth} (posted : auth.IsPosted) (half : auth.NamesHalf) :
    auth.credential = .error .notEncodable := by
  cases auth with
  | absent => exact half.elim
  | read c =>
    have other : some (c Marked.secondMark) ≠ some (c Marked.firstMark) := by
      simpa using half.2
    exact (Credential.encodable_spec (fun mark => some (c mark)) rfl).1 ⟨half.1, other⟩
  | posted data =>
    obtain ⟨c, standsIn, basic, other⟩ := half
    exact (Credential.ofMarked_of_standsIn posted standsIn).1 ⟨basic, other⟩

theorem credential_spec {auth : Auth} (posted : auth.IsPosted) (whole : ¬auth.NamesHalf) :
    (auth.wrongPlaces = [] → ∃ given, auth.credential = .ok given ∧ auth.Gives given) ∧
      (auth.wrongPlaces ≠ [] →
        ∃ issues, auth.credential = .error (.invalid .credential issues) ∧
          issues.map Issue.location = auth.wrongPlaces) := by
  cases auth with
  | absent => exact ⟨fun _ => ⟨none, rfl, rfl⟩, fun wrong => absurd rfl wrong⟩
  | read c =>
    have same : ¬((c Marked.firstMark).kind = .basic ∧
        some (c Marked.secondMark) ≠ some (c Marked.firstMark)) :=
      fun ⟨basic, other⟩ => whole ⟨basic, by simpa using other⟩
    have read := (Credential.encodable_spec (fun mark => some (c mark)) rfl).2 same
    exact ⟨fun _ => ⟨_, read, rfl⟩, fun wrong => absurd rfl wrong⟩
  | posted data =>
    obtain ⟨right, wrong⟩ := Credential.ofPosted_object (posted Marked.firstMark)
    refine ⟨fun none => ?_, fun some => ?_⟩
    · obtain ⟨c, -, standsIn⟩ := right none
      have same : ¬(c.kind = .basic ∧ ¬c.StandsIn (data Marked.secondMark)) :=
        fun ⟨basic, other⟩ => whole ⟨c, standsIn, basic, other⟩
      have read := (Credential.ofMarked_of_standsIn posted standsIn).2 same
      exact ⟨_, read, c, rfl, standsIn⟩
    · obtain ⟨issues, refused, places⟩ := wrong some
      exact ⟨issues, Credential.ofMarked_of_error (fun mark => .object (data mark)) refused, places⟩

end Auth

theorem result_reply (outcome : Logged Snippet) :
    (reply outcome).result =
      match outcome.result with
      | .ok snippet => .ok (.code snippet.source)
      | .error fault => (replyToFault fault).result := by
  unfold reply
  cases outcome.result <;> rfl

/-- The message about a record in which so many places are wrong. -/
def wrongMessage (count : Nat) : String := s!"Invalid request data: {count} error(s)"

/-- How a page is answered: one case for each check that can fail first, and one for the case that
none does. The emitter then finds the library under the name that is offered, and the row of its
literals is found under the name of its dialect. The body may name lone halves; the mark in their
place stands in the code as well. -/
inductive Answers (language : String) (variant : Option String) (data : List (String × Value))
    (auth : Auth) (mark : Char) : Reply → Prop
  | badRequest (wrong : Request.wrongPlaces data ≠ []) :
      Answers language variant data auth mark
        (.error (wrongMessage (Request.wrongPlaces data).length))
  | badCredential (request : Request.wrongPlaces data = []) (wrong : auth.wrongPlaces ≠ []) :
      Answers language variant data auth mark (.error (wrongMessage auth.wrongPlaces.length))
  | unknownLanguage (request : Request.wrongPlaces data = []) (credential : auth.wrongPlaces = [])
      (unknown : ∀ l : Language, l.id ≠ Text.lower language) :
      Answers language variant data auth mark (.error ("Unsupported language: " ++ language ++
        ". Available: javascript, python, ruby, php, go, java, csharp, swift, kotlin"))
  | noEmitter (request : Request.wrongPlaces data = []) (credential : auth.wrongPlaces = [])
      {l : Language} (named : l.id = Text.lower language) (listed : l.spec.implemented = false) :
      Answers language variant data auth mark
        (.error ("Generator not implemented for language: " ++ l.id))
  | code {l : Language} {emitter : Emitter} {library : Library} {r : Request}
      {credential : Option Credential} {source : String} (request : r.StandsIn data)
      (gives : auth.Gives credential) (named : l.id = Text.lower language)
      (listed : l.emitter? = some emitter)
      (known : emitter.library (.text (Catalog.offered l variant)) = .ok library)
      (row : Target.ofValue (.text library.target.name) = .ok library.target)
      (emitted : (library.emit (r.marked mark) (Headers.prepare r.headers credential)).result =
        .ok source) :
      Answers language variant data auth mark (.code source)

/-- Whether a check fails: of the request, of a credential that a page posts, of the name of the
language, or whether code can be written for it. -/
def Fails (language : String) (data : List (String × Value)) (auth : Auth) : Prop :=
  (¬∃ r : Request, r.StandsIn data) ∨
    (∃ fields, auth = .posted fields ∧
      ¬∃ c : Credential, c.StandsIn (fields Marked.firstMark)) ∨
      (∀ l : Language, l.id ≠ Text.lower language) ∨
        ∃ l : Language, l.id = Text.lower language ∧ l.spec.implemented = false

theorem availableText_all : availableText (Language.all.map Language.id) =
    ". Available: javascript, python, ruby, php, go, java, csharp, swift, kotlin" := by
  decide

theorem result_replyToFault_invalid {model : Model} {issues : List Issue}
    {places : List (List String)} (h : issues.map Issue.location = places) :
    (replyToFault (.invalid model issues)).result = .ok (.error (wrongMessage places.length)) := by
  have count : places.length = issues.length := by rw [← h, List.length_map]
  rw [count]
  rfl

theorem Auth.wrongPlaces_ne_nil_iff {auth : Auth} (posted : auth.IsPosted) :
    auth.wrongPlaces ≠ [] ↔ ∃ fields, auth = .posted fields ∧
      ¬∃ c : Credential, c.StandsIn (fields Marked.firstMark) := by
  cases auth with
  | absent | read => simp [wrongPlaces]
  | posted data =>
    rw [wrongPlaces, ne_eq, ← Credential.standsIn_iff (posted Marked.firstMark)]
    simp

section Answers

variable {language : String} {variant : Option String} {data : List (String × Value)} {auth : Auth}

/-- An answer is an error exactly when a check fails. -/
theorem Answers.error_iff {mark : Char} {answer : Reply}
    (posted : ∀ field ∈ data, field.2.IsPosted) (postedAuth : auth.IsPosted)
    (h : Answers language variant (Request.given data) auth mark answer) :
    (∃ message, answer = .error message) ↔ Fails language (Request.given data) auth := by
  have request := (Request.standsIn_iff posted).not
  have credential := Auth.wrongPlaces_ne_nil_iff postedAuth
  cases h with
  | badRequest wrong => exact ⟨fun _ => .inl (request.mpr wrong), fun _ => ⟨_, rfl⟩⟩
  | badCredential _ wrong =>
    exact ⟨fun _ => .inr (.inl (credential.mp wrong)), fun _ => ⟨_, rfl⟩⟩
  | unknownLanguage _ _ unknown => exact ⟨fun _ => .inr (.inr (.inl unknown)), fun _ => ⟨_, rfl⟩⟩
  | noEmitter _ _ named listed =>
    exact ⟨fun _ => .inr (.inr (.inr ⟨_, named, listed⟩)), fun _ => ⟨_, rfl⟩⟩
  | @code l _ _ r _ _ standsIn gives named listed =>
    constructor
    · rintro ⟨_, ⟨⟩⟩
    · rintro (none | ⟨fields, rfl, none⟩ | unknown | ⟨l', named', unlisted⟩)
      · exact absurd ⟨r, standsIn⟩ none
      · obtain ⟨c, -, standsIn⟩ := gives
        exact absurd ⟨c, standsIn⟩ none
      · exact absurd named (unknown l)
      · rw [Catalog.id_injective l' l (named'.trans named.symm), Language.spec, listed] at unlisted
        cases unlisted

variable (language variant)

/-- A credential that cannot be encoded is noticed behind the check of the request, before the
language is looked up. -/
theorem generateCode_of_namesHalf (posted : ∀ field ∈ data, field.2.IsPosted)
    (postedAuth : auth.IsPosted) (mark : Char)
    (right : Request.wrongPlaces (Request.given data) = [])
    (half : auth.NamesHalf) :
    (generateCode (.text language) (variant.elim .null .text)
      ((Request.ofPosted (.object data)).map (·.marked mark)) auth.credential).result =
        .error .notEncodable := by
  obtain ⟨r, read, -⟩ := (Request.ofPosted_object posted).1 right
  rw [generateCode, result_reply]
  simp only [Logged.result_bind, Logged.result_liftM]
  rw [read, Auth.credential_of_namesHalf postedAuth half]
  rfl

theorem exists_answer (posted : ∀ field ∈ data, field.2.IsPosted) (postedAuth : auth.IsPosted)
    (mark : Char) (answered : Request.wrongPlaces (Request.given data) = [] → ¬auth.NamesHalf) :
    ∃ answer, (generateCode (.text language) (variant.elim .null .text)
        ((Request.ofPosted (.object data)).map (·.marked mark)) auth.credential).result =
          .ok answer ∧
      Answers language variant (Request.given data) auth mark answer := by
  obtain ⟨request, badRequest⟩ := Request.ofPosted_object posted
  rw [generateCode, result_reply, Catalog.resolveLoose_text]
  simp only [Logged.result_bind, Logged.result_liftM]
  by_cases wrong : Request.wrongPlaces (Request.given data) = []
  · obtain ⟨credential, badCredential⟩ := Auth.credential_spec postedAuth (answered wrong)
    obtain ⟨r, read, standsIn⟩ := request wrong
    rw [read, Except.map, Logged.ok_bind]
    by_cases wrongAuth : auth.wrongPlaces = []
    · obtain ⟨given, read, gives⟩ := credential wrongAuth
      rw [read, Logged.ok_bind]
      by_cases known : ∃ l : Language, l.id = Text.lower language
      · obtain ⟨l, named⟩ := known
        cases listed : l.emitter? with
        | none =>
          rw [Catalog.result_resolve_unwritten named listed]
          refine ⟨_, rfl, .noEmitter wrong wrongAuth named ?_⟩
          rw [Language.spec, listed]
          rfl
        | some emitter =>
          obtain ⟨library, -, found⟩ := Catalog.library_offered listed variant
          have row : Target.ofValue (.text library.target.name) = .ok library.target := by
            cases library <;> rfl
          rw [Catalog.result_resolve named listed, Logged.ok_bind]
          simp only [found, Logged.ok_bind, Library.result_emit, Logged.result_pure]
          exact ⟨_, rfl, .code standsIn gives named listed found row (library.result_emit _ _)⟩
      · rw [not_exists] at known
        rw [Catalog.result_resolve_unknown known]
        refine ⟨_, rfl, ?_⟩
        rw [availableText_all]
        exact .unknownLanguage wrong wrongAuth known
    · obtain ⟨issues, eq, places⟩ := badCredential wrongAuth
      rw [eq]
      exact ⟨_, result_replyToFault_invalid places, .badCredential wrong wrongAuth⟩
  · obtain ⟨issues, eq, places⟩ := badRequest wrong
    rw [eq]
    exact ⟨_, result_replyToFault_invalid places, .badRequest wrong⟩

/-- The page gets a fault for an answer when the request is right and a basic credential holds a
lone half. In every other case it is answered, by the first check that fails or with the code that
the library of the language writes, and the answer is an error exactly when a check fails. -/
theorem generateCode_answers (posted : ∀ field ∈ data, field.2.IsPosted)
    (postedAuth : auth.IsPosted) (mark : Char) :
    let result := (generateCode (.text language) (variant.elim .null .text)
      ((Request.ofPosted (.object data)).map (·.marked mark)) auth.credential).result
    let breaks := (∃ r : Request, r.StandsIn (Request.given data)) ∧ auth.NamesHalf
    (breaks → result = .error .notEncodable) ∧
      (¬breaks → ∃ answer, result = .ok answer ∧
        Answers language variant (Request.given data) auth mark answer ∧
          ((∃ message, answer = .error message) ↔ Fails language (Request.given data) auth)) := by
  intro result breaks
  have right := Request.standsIn_iff posted
  refine ⟨fun h => ?_, fun h => ?_⟩
  · exact generateCode_of_namesHalf language variant posted postedAuth mark (right.mp h.1) h.2
  · obtain ⟨answer, given, answers⟩ := exists_answer language variant posted postedAuth mark
      fun none half => h ⟨right.mpr none, half⟩
    exact ⟨answer, given, answers, answers.error_iff posted postedAuth⟩

end Answers

theorem isPosted_scalar {s : Scalar} (h : s.IsPosted) : (Value.scalar s).IsPosted :=
  ⟨.scalar h, Value.distinctKeys_scalar _⟩

/-- A page that leaves the method empty, asks for a library in capital letters and posts a basic
credential without lone halves is answered. -/
theorem capital_answered :
    let data := [("method", Value.null), ("url", .text "/"), ("body", .text "[")]
    let auth := Auth.posted fun _ => [("type", .text "basic"), ("value", .text "a:b")]
    ¬((∃ r : Request, r.StandsIn (Request.given data)) ∧ auth.NamesHalf) ∧
      ∃ answer, (generateCode (.text "Python") (.text "HTTPX")
          ((Request.ofPosted (.object data)).map (·.marked '\ufdd0')) auth.credential).result =
            .ok answer ∧
        Answers "Python" (some "HTTPX") (Request.given data) auth '\ufdd0' answer ∧
          ((∃ message, answer = .error message) ↔ Fails "Python" (Request.given data) auth) := by
  intro data auth
  have posted : ∀ field ∈ data, field.2.IsPosted := by
    simp only [data, List.forall_mem_cons]
    exact ⟨isPosted_scalar trivial, isPosted_scalar trivial, isPosted_scalar trivial, by simp⟩
  have postedAuth : auth.IsPosted := by
    intro mark
    simp only [List.forall_mem_cons]
    exact ⟨isPosted_scalar trivial, isPosted_scalar trivial, by simp⟩
  have whole : ¬((∃ r : Request, r.StandsIn (Request.given data)) ∧ auth.NamesHalf) :=
    fun ⟨_, _, standsIn, _, other⟩ => other standsIn
  exact ⟨whole, (generateCode_answers "Python" (some "HTTPX") posted postedAuth '\ufdd0').2 whole⟩

/-- A page that posts a basic credential whose value is a lone half is not answered. -/
theorem half_not_answered :
    let auth := Auth.posted fun mark =>
      [("type", .text "basic"), ("value", .text (String.singleton mark))]
    ¬∃ answer, (generateCode (.text "python") .null
      (Request.ofPosted (.object [("url", .text "/")])) auth.credential).result = .ok answer := by
  rintro auth ⟨answer, h⟩
  cases h

end Runner

end RequestWriter
