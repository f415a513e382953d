import RequestWriter.Proofs.Snippet.Payload
import RequestWriter.Proofs.Json.Denoted
import RequestWriter.Snippet.Library

/-!
# Texts stay in their literals

A snippet is split into its literals and the code between them. The literals hold the texts of the
request and nothing else but the constants of the library, each at its place; and the code is the
same for all requests that look alike, whatever their texts are. So no text of a request becomes
code.

Two requests look alike when their verbs are the same or both are not standard, when they have as
many headers, and when their payloads have one outline: both none, both raw, or both structured with
the same numbers and words in the same containers.
-/

namespace RequestWriter

/-- The names and values of headers, in order. -/
def Headers.texts (headers : Headers) : List String :=
  headers.flatMap fun header => [header.1, header.2]

namespace Payload

/-- The texts of a structured payload. -/
def structuredTexts : Option Payload → List String
  | some (.structured v) => v.texts levels
  | _ => []

/-- The text of a raw payload. -/
def rawTexts : Option Payload → List String
  | some (.raw s) => [s]
  | _ => []

/-- The payload with its texts blanked. -/
def outline : Payload → Payload
  | .structured v => .structured (v.outline levels)
  | .raw _ => .raw ""

end Payload

/-- The verb, where the client library has no name for it. -/
def Request.otherVerb (r : Request) : List String := if r.isStandard then [] else [r.verb]

/-- The texts that the literals of a snippet hold, in order. -/
def Library.literals (library : Library) (r : Request) (headers : Headers) : List String :=
  let payload := Payload.ofRequest? r
  match library with
  | .fetch =>
    r.url :: headers.texts ++ Payload.structuredTexts payload ++ r.verb :: Payload.rawTexts payload
  | .axios =>
    "axios" :: r.url :: headers.texts ++ Payload.structuredTexts payload
      ++ Text.lower r.verb :: Payload.rawTexts payload
  | .requests | .httpx =>
    r.url :: headers.texts ++ Payload.structuredTexts payload ++ r.otherVerb
      ++ Payload.rawTexts payload
  | .netHttp =>
    ["net/http", "uri", "json", r.url, "https"] ++ r.otherVerb ++ headers.texts
      ++ Payload.structuredTexts payload ++ Payload.rawTexts payload
  | .httparty =>
    ["httparty", "json"] ++ Payload.structuredTexts payload ++ r.otherVerb ++ r.url :: headers.texts
      ++ Payload.rawTexts payload

/-- Two requests with final headers that look alike but for their texts. -/
structure Alike (r r' : Request) (headers headers' : Headers) : Prop where
  standard : r.isStandard = r'.isStandard
  verb : r.isStandard = true → r.verb = r'.verb
  count : headers.length = headers'.length
  payload : (Payload.ofRequest? r).map Payload.outline = (Payload.ofRequest? r').map Payload.outline

namespace Piece

variable {t : Target} {r r' : Request} {headers headers' : Headers}

theorem twin_headers (doubled : t.dialect.escapesBackslash = true)
    (count : headers.length = headers'.length) (indent closing : String)
    (hindent : Unmarked indent.toList) (hclosing : Unmarked closing.toList) :
    Twin t.dialect (headers.block t.dialect indent closing)
      (headers'.block t.dialect indent closing)
      headers.texts headers'.texts := by
  have separator : Unmarked t.dialect.keySeparator.toList := by
    cases t <;> decide
  have entry : ∀ a b c d : String,
      Twin t.dialect (indent ++ t.dialect.quote a ++ t.dialect.keySeparator ++ t.dialect.quote b)
        (indent ++ t.dialect.quote c ++ t.dialect.keySeparator ++ t.dialect.quote d)
        [a, b] [c, d] := fun a b c d =>
    (((hindent.twin).append (.quote t.sound doubled a c)).append separator.twin).append
      (.quote t.sound doubled b d)
  have lines := Twins.map
    (show headers.map (fun _ => ()) = headers'.map fun _ => () by simpa using count)
    fun x _ y _ _ => entry x.1 x.2 y.1 y.2
  have front : Unmarked "\x7b\n".toList := by decide
  have comma : Unmarked ",\n".toList := by decide
  have newline : Unmarked "\n".toList := by decide
  have close : Unmarked "\x7d".toList := by decide
  have whole := (((front.twin (t := t)).append (lines.join _ (comma.delimiter_notMem t))).append
    newline.twin).append (hclosing.twin.append close.twin)
  unfold Headers.block
  cases headers with
  | nil =>
    obtain rfl := List.length_eq_zero_iff.mp count.symm
    exact Unmarked.twin (s := "\x7b\x7d") (by decide)
  | cons header headers =>
    obtain ⟨header', headers', rfl⟩ := List.exists_cons_of_length_eq_add_one count.symm
    simpa [String.append_assoc, Headers.texts] using whole

section Payloads

variable {p p' : Option Payload}

/-- The payload is a value that JSON can spell, if it is structured. -/
def IsJson (p : Option Payload) : Prop :=
  ∀ v, p = some (.structured v) → v.Built Scalar.IsJson

theorem isJson_ofRequest? (r : Request) : IsJson (Payload.ofRequest? r) := by
  intro v eq
  obtain ⟨body, -, payload⟩ := Option.map_eq_some_iff.mp eq
  unfold Payload.ofBody at payload
  split at payload
  · next w read =>
    cases payload
    exact (Body.value?_spec read).1
  · cases payload

/-- Payloads with one outline are of one kind. -/
theorem payload_cases (same : p.map Payload.outline = p'.map Payload.outline) :
    (p = none ∧ p' = none) ∨ (∃ a b, p = some (.raw a) ∧ p' = some (.raw b)) ∨
      ∃ v w, p = some (.structured v) ∧ p' = some (.structured w) ∧
        v.outline Payload.levels = w.outline Payload.levels := by
  match p, p', same with
  | none, none, _ => exact .inl ⟨rfl, rfl⟩
  | some (.raw a), some (.raw b), _ => exact .inr (.inl ⟨a, b, rfl, rfl⟩)
  | some (.structured v), some (.structured w), same =>
    exact .inr (.inr ⟨v, w, rfl, rfl, Payload.structured.inj (Option.some.inj same)⟩)

/-- Structured payloads with one outline are written as twins. -/
theorem twin_literal (doubled : t.dialect.escapesBackslash = true) {v w : Value}
    (hv : IsJson (some (.structured v))) (hw : IsJson (some (.structured w)))
    (same : v.outline Payload.levels = w.outline Payload.levels) :
    Twin t.dialect ((Payload.structured v).literal t.dialect)
      ((Payload.structured w).literal t.dialect) (v.texts Payload.levels)
      (w.texts Payload.levels) :=
  twin_render doubled [] (hv v rfl) (hw w rfl) same 0

/-- Lines that a structured payload adds: its declaration and what belongs to it. -/
theorem twins_declared (doubled : t.dialect.escapesBackslash = true)
    (lines : Option Payload → List String) (pre post : String) (more : List String)
    (none : lines none = []) (raw : ∀ s, lines (some (.raw s)) = [])
    (structured : ∀ v, lines (some (.structured v)) =
      (pre ++ (Payload.structured v).literal t.dialect ++ post) :: more)
    (hpre : Unmarked pre.toList) (hpost : Unmarked post.toList)
    (hmore : ∀ s ∈ more, Unmarked s.toList) (hp : IsJson p) (hp' : IsJson p')
    (same : p.map Payload.outline = p'.map Payload.outline) :
    Twins t.dialect (lines p) (lines p') (Payload.structuredTexts p)
      (Payload.structuredTexts p') := by
  rcases payload_cases same with ⟨rfl, rfl⟩ | ⟨a, b, rfl, rfl⟩ | ⟨v, w, rfl, rfl, outline⟩
  · rw [none]
    exact .nil
  · rw [raw, raw]
    exact .nil
  · rw [structured, structured]
    have line := Twin.between pre post hpre hpost (twin_literal doubled hp hp' outline)
    have whole := Twins.cons line (Twins.lines more hmore)
    rwa [List.append_nil, List.append_nil] at whole

/-- Lines that send a payload: a line that names the declaration, or a raw text as it is. -/
def sentLines (d : Dialect) (line pre : String) : Option Payload → List String
  | some (.structured _) => [line]
  | some (.raw s) => [pre ++ d.quote s]
  | none => []

theorem twins_sent (doubled : t.dialect.escapesBackslash = true) (line pre : String)
    (hline : Unmarked line.toList) (hpre : Unmarked pre.toList)
    (same : p.map Payload.outline = p'.map Payload.outline) :
    Twins t.dialect (sentLines t.dialect line pre p) (sentLines t.dialect line pre p')
      (Payload.rawTexts p) (Payload.rawTexts p') := by
  rcases payload_cases same with ⟨rfl, rfl⟩ | ⟨a, b, rfl, rfl⟩ | ⟨v, w, rfl, rfl, -⟩
  · exact .nil
  · exact .singleton (.behind pre hpre (.quote t.sound doubled a b))
  · exact .singleton hline.twin

end Payloads

section JavaScript

/-- The names that client libraries have for the standard verbs. -/
theorem unmarked_verb (h : r.isStandard = true) :
    Unmarked (Text.lower r.verb).toList ∧ Unmarked (Text.capitalize r.verb).toList := by
  have names : ∀ verb ∈ standardVerbs,
      Unmarked (Text.lower verb).toList ∧ Unmarked (Text.capitalize verb).toList := by decide
  exact names r.verb (List.contains_iff_mem.mp h)

theorem twins_declarations {p p' : Option Payload} (alike : Alike r r' headers headers')
    (hp : IsJson p) (hp' : IsJson p') (same : p.map Payload.outline = p'.map Payload.outline) :
    Twins JavaScript.dialect (JavaScript.declarations r headers p)
      (JavaScript.declarations r' headers' p')
      (r.url :: headers.texts ++ Payload.structuredTexts p)
      (r'.url :: headers'.texts ++ Payload.structuredTexts p') := by
  have url := Twin.between (t := .javascript) "const url = " ";" (by decide)
    (by decide) (.quote Target.javascript.sound rfl r.url r'.url)
  have block := Twin.between (t := .javascript) "const headers = " ";"
    (by decide) (by decide)
    (twin_headers rfl alike.count "  " "" (by decide) (by decide))
  have declared := twins_declared (t := .javascript) rfl
    (fun
      | some (.structured v) =>
        ["const payload = " ++ (Payload.structured v).literal JavaScript.dialect ++ ";"]
      | _ => [])
    "const payload = " ";" [] rfl (fun _ => rfl) (fun _ => rfl) (by decide) (by decide) (by simp)
    hp hp' same
  exact (Twins.cons url (.singleton block)).append declared

theorem twin_fetch (alike : Alike r r' headers headers') :
    Twin JavaScript.dialect (JavaScript.fetch r headers) (JavaScript.fetch r' headers')
      (Library.fetch.literals r headers) (Library.fetch.literals r' headers') := by
  have declared := twins_declarations alike (isJson_ofRequest? r) (isJson_ofRequest? r')
    alike.payload
  have verb := Twin.behind (t := .javascript) "  method: " (by decide)
    (.quote Target.javascript.sound rfl r.verb r'.verb)
  have sent := twins_sent (t := .javascript) rfl "  body: JSON.stringify(payload)" "  body: "
    (by decide) (by decide) alike.payload
  have options := (Twins.cons verb (.cons (Unmarked.twin (s := "  headers: headers") (by decide))
    sent)).join ",\n" (by decide)
  have call := (Twins.lines (t := .javascript)
    ["", "const response = await fetch(url, \x7b"] (by decide)).append
    (.cons options (.lines ["\x7d);", "", "const data = await response.json();",
      "console.log(data);"] (by decide)))
  exact ((declared.append call).join "\n" (by decide)).congr
    (by simp [Library.literals]) (by simp [Library.literals])

theorem twin_axios (alike : Alike r r' headers headers') :
    Twin JavaScript.dialect (JavaScript.axios r headers) (JavaScript.axios r' headers')
      (Library.axios.literals r headers) (Library.axios.literals r' headers') := by
  have required := Twin.between (t := .javascript) "const axios = require(" ");"
    (by decide) (by decide) (.quote Target.javascript.sound rfl "axios" "axios")
  have declared := twins_declarations alike (isJson_ofRequest? r) (isJson_ofRequest? r')
    alike.payload
  have verb := Twin.behind (t := .javascript) "  method: " (by decide)
    (.quote Target.javascript.sound rfl (Text.lower r.verb) (Text.lower r'.verb))
  have sent := twins_sent (t := .javascript) rfl "  data: payload" "  data: " (by decide)
    (by decide) alike.payload
  have config := (Twins.cons verb ((Twins.lines ["  url: url", "  headers: headers"]
    (by decide)).append sent)).join ",\n" (by decide)
  have call := (Twins.lines (t := .javascript) ["", "const response = await axios(\x7b"]
    (by decide)).append
    (.cons config (.lines ["\x7d);", "", "console.log(response.data);"] (by decide)))
  have opening := Twins.cons required (.cons (Unmarked.twin (s := "") (by decide)) declared)
  exact ((opening.append call).join "\n" (by decide)).congr
    (by simp [Library.literals]) (by simp [Library.literals])

end JavaScript

section Python

theorem twins_opening {p p' : Option Payload} (library : String)
    (hlibrary : Unmarked library.toList)
    (alike : Alike r r' headers headers') (hp : IsJson p) (hp' : IsJson p')
    (same : p.map Payload.outline = p'.map Payload.outline) :
    Twins Python.dialect (Python.opening library r headers p)
      (Python.opening library r' headers' p')
      (r.url :: headers.texts ++ Payload.structuredTexts p)
      (r'.url :: headers'.texts ++ Payload.structuredTexts p') := by
  have imported := Twin.behind (t := .python) "import " (by decide) hlibrary.twin
  have url := Twin.behind (t := .python) "url = " (by decide)
    (.quote Target.python.sound rfl r.url r'.url)
  have block := Twin.behind (t := .python) "headers = " (by decide)
    (twin_headers rfl alike.count "    " "" (by decide) (by decide))
  have declared := twins_declared (t := .python) rfl
    (fun
      | some (.structured v) => ["payload = " ++ (Payload.structured v).literal Python.dialect]
      | _ => [])
    "payload = " "" [] rfl (fun _ => rfl) (fun _ => by simp [Python.dialect]) (by decide)
    (by decide) (by simp) hp hp' same
  exact Twins.append (.cons imported (.cons (Unmarked.twin (s := "") (by decide))
    (.cons url (.singleton block)))) declared

/-- The call names a standard verb in its code and any other in its first argument. -/
theorem twin_call (alike : Alike r r' headers headers') (receiver : String)
    (hreceiver : Unmarked receiver.toList) {arguments arguments' a b : List String}
    (h : Twins Python.dialect arguments arguments' a b) :
    Twin Python.dialect (Python.call receiver r arguments) (Python.call receiver r' arguments')
      (r.otherVerb ++ a) (r'.otherVerb ++ b) := by
  have head : Twin Python.dialect
      (if r.isStandard then receiver ++ "." ++ Text.lower r.verb ++ "(url"
        else receiver ++ ".request(" ++ Python.dialect.quote r.verb ++ ", url")
      (if r'.isStandard then receiver ++ "." ++ Text.lower r'.verb ++ "(url"
        else receiver ++ ".request(" ++ Python.dialect.quote r'.verb ++ ", url")
      r.otherVerb r'.otherVerb := by
    unfold Request.otherVerb
    rw [← alike.standard]
    cases standard : r.isStandard with
    | true =>
      rw [← alike.verb standard]
      have verb := (unmarked_verb standard).1
      exact Twin.between (t := .python) (receiver ++ ".") "(url"
        (by simpa using unmarked_append hreceiver (by decide)) (by decide) verb.twin
    | false =>
      exact Twin.between (t := .python) (receiver ++ ".request(") ", url"
        (by simpa using unmarked_append hreceiver (by decide)) (by decide)
        (.quote Target.python.sound rfl r.verb r'.verb)
  exact (((Twins.cons head h).join ", " (by decide)).append
    (Unmarked.twin (s := ")") (by decide))).congr (by simp) (by simp)

theorem twins_arguments {p p' : Option Payload} (rawName : String)
    (hname : Unmarked rawName.toList) (same : p.map Payload.outline = p'.map Payload.outline) :
    Twins Python.dialect (Python.arguments rawName p) (Python.arguments rawName p')
      (Payload.rawTexts p) (Payload.rawTexts p') := by
  have sent := twins_sent (t := .python) rfl "json=payload" (rawName ++ "=") (by decide)
    (by simpa using unmarked_append hname (by decide)) same
  exact .cons (Unmarked.twin (s := "headers=headers") (by decide)) sent

theorem twin_requests (alike : Alike r r' headers headers') :
    Twin Python.dialect (Python.requests r headers) (Python.requests r' headers')
      (Library.requests.literals r headers) (Library.requests.literals r' headers') := by
  have opening := twins_opening "requests" (by decide) alike (isJson_ofRequest? r)
    (isJson_ofRequest? r') alike.payload
  have call := Twin.behind (t := .python) "response = " (by decide)
    (twin_call alike "requests" (by decide)
      (twins_arguments "data" (by decide) alike.payload))
  have closing := Twins.cons (Unmarked.twin (t := .python) (s := "") (by decide))
    (.cons call (.lines ["print(response.json())"] (by decide)))
  exact ((opening.append closing).join "\n" (by decide)).congr
    (by simp [Library.literals]) (by simp [Library.literals])

theorem twin_httpx (alike : Alike r r' headers headers') :
    Twin Python.dialect (Python.httpx r headers) (Python.httpx r' headers')
      (Library.httpx.literals r headers) (Library.httpx.literals r' headers') := by
  have opening := twins_opening "httpx" (by decide) alike (isJson_ofRequest? r)
    (isJson_ofRequest? r') alike.payload
  have call := Twin.behind (t := .python) "    response = " (by decide)
    (twin_call alike "client" (by decide)
      (twins_arguments "content" (by decide) alike.payload))
  have closing := (Twins.lines (t := .python) ["", "with httpx.Client() as client:"]
    (by decide)).append (.cons call (.lines ["    print(response.json())"] (by decide)))
  exact ((opening.append closing).join "\n" (by decide)).congr
    (by simp [Library.literals]) (by simp [Library.literals])

end Python

section Ruby

theorem twins_bodyLines {p p' : Option Payload} (hp : IsJson p) (hp' : IsJson p')
    (same : p.map Payload.outline = p'.map Payload.outline) :
    Twins Ruby.dialect (Ruby.bodyLines p) (Ruby.bodyLines p')
      (Payload.structuredTexts p ++ Payload.rawTexts p)
      (Payload.structuredTexts p' ++ Payload.rawTexts p') := by
  rcases payload_cases same with ⟨rfl, rfl⟩ | ⟨a, b, rfl, rfl⟩ | ⟨v, w, rfl, rfl, outline⟩
  · exact .nil
  · exact .singleton (.behind (t := .ruby) _ (by decide) (.quote Target.ruby.sound rfl a b))
  · exact .cons (.behind (t := .ruby) _ (by decide) (twin_literal rfl hp hp' outline))
      (.lines ["request.body = " ++ "payload.to_json"] (by decide))

theorem twin_requestLine (alike : Alike r r' headers headers') :
    Twin Ruby.dialect (Ruby.requestLine r) (Ruby.requestLine r') r.otherVerb r'.otherVerb := by
  unfold Ruby.requestLine Request.otherVerb
  rw [← alike.standard]
  cases standard : r.isStandard with
  | true =>
    rw [← alike.verb standard]
    exact .between (t := .ruby) _ _ (by decide) (by decide) ((unmarked_verb standard).2).twin
  | false =>
    exact .between (t := .ruby) _ _ (by decide) (by decide)
      (.quote Target.ruby.sound rfl r.verb r'.verb)

theorem twin_netHttp (alike : Alike r r' headers headers') :
    Twin Ruby.dialect (Ruby.netHttp r headers) (Ruby.netHttp r' headers')
      (Library.netHttp.literals r headers) (Library.netHttp.literals r' headers') := by
  have fixed := fun (pre post : String) (hpre : Unmarked pre.toList) (hpost : Unmarked post.toList)
      (s s' : String) =>
    Twin.between (t := .ruby) pre post hpre hpost (.quote Target.ruby.sound rfl s s')
  have required := Twins.cons (fixed "require " "" (by decide) (by decide)
      "net/http" "net/http")
    (.cons (fixed "require " "" (by decide) (by decide) "uri" "uri")
    (.cons (fixed "require " "" (by decide) (by decide) "json" "json")
    (.cons (Unmarked.twin (s := "") (by decide))
    (.cons (fixed "uri = URI(" ")" (by decide) (by decide) r.url r'.url)
    (.cons (Unmarked.twin (s := "") (by decide))
    (.cons (Unmarked.twin (s := "http = Net::HTTP.new(uri.host, uri.port)") (by decide))
    (.cons (fixed "http.use_ssl = uri.scheme == " "" (by decide) (by decide)
      "https" "https")
    (.cons (Unmarked.twin (s := "") (by decide)) (.singleton (twin_requestLine alike))))))))))
  have assigned := Twins.map (d := Ruby.dialect)
    (show headers.map (fun _ => ()) = headers'.map fun _ => () by simpa using alike.count)
    fun x _ y _ _ =>
      (fixed "request[" "] = " (by decide) (by decide) x.1 y.1).append
        (.quote Target.ruby.sound rfl x.2 y.2)
  have body := twins_bodyLines (isJson_ofRequest? r) (isJson_ofRequest? r') alike.payload
  have closing := Twins.lines (t := .ruby) ["", "response = http.request(request)",
    "puts JSON.parse(response.body)"] (by decide)
  have whole := (((required.append assigned).append body).append closing).join "\n"
    (by decide)
  exact whole.congr (by simp [Library.literals, Headers.texts])
    (by simp [Library.literals, Headers.texts])

/-- HTTParty declares a class for a verb that has no name. -/
theorem twins_partyCall (alike : Alike r r' headers headers')
    {arguments arguments' a b : List String}
    (h : Twins Ruby.dialect arguments arguments' a b) :
    Twins Ruby.dialect (Ruby.partyCall r arguments) (Ruby.partyCall r' arguments')
      (r.otherVerb ++ a) (r'.otherVerb ++ b) := by
  have joined := h.join ",\n" (by decide)
  unfold Ruby.partyCall Request.otherVerb
  rw [← alike.standard]
  cases standard : r.isStandard with
  | true =>
    rw [← alike.verb standard]
    have name := Twin.between (t := .ruby) "response = HTTParty." "(" (by decide)
      (by decide) ((unmarked_verb standard).1).twin
    have whole := Twins.cons name (.cons joined (.lines [")"] (by decide)))
    simpa [Ruby.dialect] using whole
  | false =>
    have method := Twin.behind (t := .ruby) "  METHOD = " (by decide)
      (.quote Target.ruby.sound rfl r.verb r'.verb)
    have declared := Twins.cons
      (Unmarked.twin (s := "class CustomRequest < Net::HTTPRequest") (by decide))
      (.cons method (.lines ["  REQUEST_HAS_BODY = false", "  RESPONSE_HAS_BODY = true",
        "end", ""] (by decide)))
    have call := (Twins.lines (t := .ruby) ["response = HTTParty::Request.new(",
      "  CustomRequest,"] (by decide)).append (.cons joined (.lines [").perform"]
        (by decide)))
    simpa [Ruby.customClass, Ruby.dialect] using declared.append call

/-- The argument of HTTParty for the body. -/
theorem toList_bodyExpression (p : Option Payload) :
    (p.map fun p => "  body: " ++ Ruby.bodyExpression p).toList =
      sentLines Target.ruby.dialect "  body: payload.to_json" "  body: " p := by
  rcases p with _ | _ | _ <;> rfl

theorem twin_httparty (alike : Alike r r' headers headers') :
    Twin Ruby.dialect (Ruby.httparty r headers) (Ruby.httparty r' headers')
      (Library.httparty.literals r headers) (Library.httparty.literals r' headers') := by
  have required := fun s : String => Twin.behind (t := .ruby) "require " (by decide)
    (.quote Target.ruby.sound rfl s s)
  have opening := Twins.cons (required "httparty") (.cons (required "json")
    (.singleton (Unmarked.twin (s := "") (by decide))))
  have declared := twins_declared (t := .ruby) rfl
    (fun
      | some (.structured v) =>
        ["payload = " ++ (Payload.structured v).literal Ruby.dialect, ""]
      | _ => [])
    "payload = " "" [""] rfl (fun _ => rfl) (fun _ => by simp [Ruby.dialect]) (by decide)
    (by decide) (by decide)
    (isJson_ofRequest? r) (isJson_ofRequest? r') alike.payload
  have url := Twin.behind (t := .ruby) "  " (by decide)
    (.quote Target.ruby.sound rfl r.url r'.url)
  have block := Twin.behind (t := .ruby) "  headers: " (by decide)
    (twin_headers rfl alike.count "    " "  " (by decide) (by decide))
  have sent := twins_sent (t := .ruby) rfl "  body: payload.to_json" "  body: " (by decide)
    (by decide) alike.payload
  rw [← toList_bodyExpression, ← toList_bodyExpression] at sent
  have call := twins_partyCall alike (.cons url (.cons block sent))
  have closing := Twins.lines (t := .ruby) ["", "puts JSON.parse(response.body)"] (by decide)
  have whole := (((opening.append declared).append call).append closing).join "\n"
    (by decide)
  exact whole.congr (by simp [Library.literals]) (by simp [Library.literals])

end Ruby

end Piece

namespace Library

theorem twin_source (library : Library) {r r' : Request} {headers headers' : Headers}
    (alike : Alike r r' headers headers') :
    Piece.Twin library.target.dialect (library.source r headers) (library.source r' headers')
      (library.literals r headers) (library.literals r' headers') := by
  cases library with
  | fetch => exact Piece.twin_fetch alike
  | axios => exact Piece.twin_axios alike
  | requests => exact Piece.twin_requests alike
  | httpx => exact Piece.twin_httpx alike
  | netHttp => exact Piece.twin_netHttp alike
  | httparty => exact Piece.twin_httparty alike

/-- Writing a snippet leaves records only: a value that was read can be written. -/
theorem result_emit (library : Library) (r : Request) (headers : Headers) :
    (library.emit r headers).result = .ok (library.source r headers) := by
  refine Step.result_play_of_forall _ _ fun fault mem => ?_
  unfold Payload.steps at mem
  split at mem
  · simp at mem
  · next body sent =>
    rcases List.mem_append.mp mem with mem | mem
    · unfold Body.steps at mem
      split at mem <;> simp at mem
    · unfold Payload.literalSteps Payload.ofBody at mem
      cases read : Body.value? body with
      | none => simp [read] at mem
      | some v =>
        simp only [read] at mem
        exact Literal.fail_not_mem_steps (fun _ h => Literal.scalarSteps_of_isShort h.isShort)
          (Body.value?_spec read).1 _ _ fault mem

/-- Every text of a request stays in its literal: the snippet splits into pieces whose literals hold
the url, the header names and values, the keys and strings of a structured payload or the raw one,
and the verb where it is written as a string; and the code between the literals is the same for
every request that looks alike. -/
theorem emit_contains_texts (library : Library) (r : Request) (headers : Headers) :
    ∃ source pieces, (library.emit r headers).result = .ok source ∧
      Piece.ofSource? library.target.dialect source = some pieces ∧
      Piece.texts pieces = library.literals r headers ∧
      ∀ r' headers', Alike r r' headers headers' → ∃ source' pieces',
        (library.emit r' headers').result = .ok source' ∧
        Piece.ofSource? library.target.dialect source' = some pieces' ∧
        Piece.texts pieces' = library.literals r' headers' ∧
        Piece.frame pieces' = Piece.frame pieces := by
  have split : ∀ {source pieces}, Piece.Scans library.target.dialect source pieces →
      Piece.ofSource? library.target.dialect source = some pieces := by
    intro source pieces scans
    have whole := scans []
    rwa [List.append_nil, Piece.split?, Option.map_some, List.append_nil] at whole
  obtain ⟨ps, -, scans, -, texts, -, -⟩ :=
    library.twin_source (show Alike r r headers headers from ⟨rfl, fun _ => rfl, rfl, rfl⟩)
  refine ⟨_, ps, library.result_emit r headers, split scans, texts, fun r' headers' alike => ?_⟩
  obtain ⟨ps', qs, scans', scansTwin, -, textsTwin, same⟩ := library.twin_source alike
  have equal : ps = ps' := Option.some.inj ((split scans).symm.trans (split scans'))
  exact ⟨_, qs, library.result_emit r' headers', split scansTwin, textsTwin,
    by rw [equal, same]⟩

/-- A request whose texts look like the end of a literal and more code. -/
def hostile : Request :=
  ⟨"post", "'); \" + x\n\\", [], some "\x7b\"\\\"');\": [\"\\n\\u0027\", 1.50]\x7d"⟩

/-- A request that looks like `hostile` but for its texts. -/
def harmless : Request := ⟨"Post", "/", [], some "\x7b\"a\": [\"\", 15e-1]\x7d"⟩

/-- The code of a snippet is the same for `hostile` and `harmless`. -/
theorem hostile_contained : Alike hostile harmless [("'", "\\\"")] [("A", "b")] ∧
    ∃ source pieces source' pieces',
      (Library.fetch.emit hostile [("'", "\\\"")]).result = .ok source ∧
      Piece.ofSource? Target.javascript.dialect source = some pieces ∧
      (Library.fetch.emit harmless [("A", "b")]).result = .ok source' ∧
      Piece.ofSource? Target.javascript.dialect source' = some pieces' ∧
      Piece.texts pieces = [hostile.url, "'", "\\\"", "\"');", "\n'", "POST"] ∧
      Piece.texts pieces' = ["/", "A", "b", "a", "", "POST"] ∧
      Piece.frame pieces' = Piece.frame pieces := by
  have alike : Alike hostile harmless [("'", "\\\"")] [("A", "b")] :=
    ⟨by decide, by decide, rfl, rfl⟩
  obtain ⟨source, pieces, written, split, texts, others⟩ :=
    emit_contains_texts .fetch hostile [("'", "\\\"")]
  obtain ⟨source', pieces', written', split', texts', same⟩ := others _ _ alike
  exact ⟨alike, source, pieces, source', pieces', written, split, written', split', texts, texts',
    same⟩

end Library

end RequestWriter
