import RequestWriter.Proofs.Snippet.Agreement

/-!
# What a rendering depends on

A rendering looks at the URL, at the verb, and at the body that is sent, and at no other part of a
request. So the case of the method, the headers that the request came with, and a body that is not
sent leave no trace in any snippet or command. Every writer is gone through once, with two requests
in mind that send the same.
-/

namespace RequestWriter

/-- Two requests that go out as one and the same, given the same final headers. -/
structure Request.SendsAs (r r' : Request) : Prop where
  url : r.url = r'.url
  verb : r.verb = r'.verb
  body : r.sentBody? = r'.sentBody?

namespace Request

variable {r r' : Request}

/-- A request does not carry a body: its verb does not take one, or the body is absent or empty. -/
def Bodiless (r : Request) : Prop :=
  r.verb ∉ ["POST", "PUT", "PATCH"] ∨ r.body = none ∨ r.body = some ""

theorem sentBody?_eq_none_iff : r.sentBody? = none ↔ r.Bodiless := by
  unfold sentBody? Bodiless mutatingVerbs
  by_cases mutating : r.verb ∈ ["POST", "PUT", "PATCH"]
  · simp only [List.contains_iff_mem, mutating, if_true, not_true_eq_false, false_or]
    cases r.body <;> simp
  · simp only [List.contains_iff_mem, mutating, if_false, not_false_eq_true, true_or]

theorem sendsAs_of_body (url : r.url = r'.url) (verb : r.verb = r'.verb)
    (body : r.body = r'.body ∨ (r.Bodiless ∧ r'.Bodiless)) : r.SendsAs r' := by
  refine ⟨url, verb, ?_⟩
  rcases body with same | ⟨none, none'⟩
  · unfold sentBody?
    rw [verb, same]
  · rw [sentBody?_eq_none_iff.mpr none, sentBody?_eq_none_iff.mpr none']

namespace SendsAs

theorem isStandard (h : r.SendsAs r') : r.isStandard = r'.isStandard := by
  unfold Request.isStandard
  rw [h.verb]

theorem payload (h : r.SendsAs r') : Payload.ofRequest? r = Payload.ofRequest? r' := by
  unfold Payload.ofRequest?
  rw [h.body]

theorem javascript (h : r.SendsAs r') (headers : Headers) :
    JavaScript.fetch r headers = JavaScript.fetch r' headers ∧
      JavaScript.axios r headers = JavaScript.axios r' headers := by
  have declarations : ∀ payload, JavaScript.declarations r headers payload =
      JavaScript.declarations r' headers payload := by
    intro payload
    unfold JavaScript.declarations
    rw [h.url]
  constructor
  · simp only [JavaScript.fetch, h.payload, h.verb, declarations]
  · simp only [JavaScript.axios, h.payload, h.verb, declarations]

theorem python (h : r.SendsAs r') (headers : Headers) :
    Python.requests r headers = Python.requests r' headers ∧
      Python.httpx r headers = Python.httpx r' headers := by
  have opening : ∀ library payload, Python.opening library r headers payload =
      Python.opening library r' headers payload := by
    intro library payload
    unfold Python.opening
    rw [h.url]
  have call : ∀ receiver arguments, Python.call receiver r arguments =
      Python.call receiver r' arguments := by
    intro receiver arguments
    unfold Python.call
    rw [h.isStandard, h.verb]
  constructor
  · simp only [Python.requests, h.payload, opening, call]
  · simp only [Python.httpx, h.payload, opening, call]

theorem ruby (h : r.SendsAs r') (headers : Headers) :
    Ruby.netHttp r headers = Ruby.netHttp r' headers ∧
      Ruby.httparty r headers = Ruby.httparty r' headers := by
  have requestLine : Ruby.requestLine r = Ruby.requestLine r' := by
    unfold Ruby.requestLine
    rw [h.isStandard, h.verb]
  have partyCall : ∀ arguments, Ruby.partyCall r arguments = Ruby.partyCall r' arguments := by
    intro arguments
    unfold Ruby.partyCall
    rw [h.isStandard, h.verb]
  constructor
  · simp only [Ruby.netHttp, h.payload, h.url, requestLine]
  · simp only [Ruby.httparty, h.payload, h.url, partyCall]

/-- The snippet of every library is the same, and so is what writing it leaves in the log. -/
theorem emit (h : r.SendsAs r') (library : Library) (headers : Headers) :
    library.emit r headers = library.emit r' headers := by
  have source : library.source r headers = library.source r' headers := by
    cases library with
    | fetch => exact (h.javascript headers).1
    | axios => exact (h.javascript headers).2
    | requests => exact (h.python headers).1
    | httpx => exact (h.python headers).2
    | netHttp => exact (h.ruby headers).1
    | httparty => exact (h.ruby headers).2
  unfold Library.emit Payload.steps
  rw [source, h.body]

/-- The command of every style is the same, and so is what writing it leaves in the log. -/
theorem format (h : r.SendsAs r') (style : Shell.Style) (headers : Headers) :
    Shell.format style r headers = Shell.format style r' headers := by
  have tokens : Shell.curlTokens r headers = Shell.curlTokens r' headers := by
    unfold Shell.curlTokens
    rw [h.verb, h.url, h.body]
  have call : Shell.powershellCall r headers = Shell.powershellCall r' headers := by
    unfold Shell.powershellCall
    rw [h.verb, h.url, h.body]
  have command : Shell.command style r headers = Shell.command style r' headers := by
    cases style with
    | powershell => exact call
    | multiline | single | escaped =>
      unfold Shell.command
      rw [tokens]
  unfold Shell.format Shell.steps
  rw [command, h.body]

end SendsAs

/-- Two requests with one URL and one method up to case, which have the same body or send none,
become the same text in every snippet and every command. Their own headers, a body that is not sent
and the case of the method do not show. -/
theorem renderings_eq {r r' : Request} (url : r.url = r'.url)
    (method : Text.upper r.method = Text.upper r'.method)
    (body : r.body = r'.body ∨ (r.Bodiless ∧ r'.Bodiless)) (headers : Headers) :
    (∀ library : Library, ∃ source, (library.emit r headers).result = .ok source ∧
      (library.emit r' headers).result = .ok source) ∧
    ∀ style, ∃ command, (Shell.format style r headers).result = .ok command ∧
      (Shell.format style r' headers).result = .ok command := by
  have same := sendsAs_of_body url method body
  refine ⟨fun library => ?_, fun style => ?_⟩
  · have written := library.result_emit r headers
    exact ⟨_, written, same.emit library headers ▸ written⟩
  · have written := Shell.result_format style r headers
    exact ⟨_, written, same.format style headers ▸ written⟩

/-- A request with headers of its own and a body that its verb does not take. -/
def draft : Request :=
  ⟨"get", "https://api.example.com/pets", [("X-Draft", "1")], some "\x7b\"name\": \"Fido\"\x7d"⟩

/-- What is sent of `draft`. -/
def plain : Request := ⟨"Get", "https://api.example.com/pets", [], none⟩

/-- The conditions of `renderings_eq` hold for `draft` and `plain`. -/
theorem draft_renders_as_plain :
    draft.url = plain.url ∧ Text.upper draft.method = Text.upper plain.method ∧
      (draft.Bodiless ∧ plain.Bodiless) ∧
      (∀ library : Library, ∃ source, (library.emit draft [("Accept", "*/*")]).result = .ok source ∧
        (library.emit plain [("Accept", "*/*")]).result = .ok source) ∧
      ∀ style, ∃ command, (Shell.format style draft [("Accept", "*/*")]).result = .ok command ∧
        (Shell.format style plain [("Accept", "*/*")]).result = .ok command := by
  have url : draft.url = plain.url := rfl
  have method : Text.upper draft.method = Text.upper plain.method := by decide
  have bodiless : draft.Bodiless ∧ plain.Bodiless := ⟨.inl (by decide), .inr (.inl rfl)⟩
  exact ⟨url, method, bodiless, renderings_eq url method (.inr bodiless) _⟩

end Request

end RequestWriter
