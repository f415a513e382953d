import RequestWriter.Proofs.Snippet.Declaration
import RequestWriter.Proofs.Snippet.Containment
import RequestWriter.Proofs.Json.Acceptance
import RequestWriter.Proofs.Json.Compact
import RequestWriter.Shell

/-!
# All renderings send one body

A body that is a JSON text is rendered in two ways: as a literal of a language, and as a JSON text
that is written anew. Both are read back here, each from where it stands in the finished snippet or
command, and give the value of the body. The literal has a bound on its depth: null stands for the
parts of the value that lie inside more than 32 containers. The JSON text has no such bound.
-/

namespace RequestWriter

namespace Library

/-- The words that declare the payload of a snippet. -/
def payloadWords : Library → String
  | .fetch | .axios => "const payload = "
  | _ => "payload = "

/-- What ends the line of a declaration. -/
def lineEnd : Library → String
  | .fetch | .axios => ";"
  | _ => ""

/-- The value of the literal that a snippet declares as its payload. -/
def payload? (library : Library) (source : String) : Option Value :=
  Source.declared? library.target.dialect library.payloadWords library.lineEnd
    (fun cs => Literal.value? library.target.dialect (cs.length + 1) (cs.length + 1) cs) source

end Library

namespace Shell

/-- The text that a command of PowerShell declares as its body. -/
def body? (command : String) : Option String :=
  Source.declared? Target.powershell.dialect "$body = " ""
    (Literal.string? Target.powershell.dialect) command

/-- A command sends the text as its body: a command of curl in one more token than the command
without a body has, a command of PowerShell in what it declares. -/
def Sends (style : Style) (r : Request) (headers : Headers) (text : String) : Prop :=
  let bare := (format style { r with body := none } headers).result
  let token := "-d '" ++ text ++ "'"
  ∃ command, (format style r headers).result = .ok command ∧
    match style with
    | .multiline => bare.map (· ++ continuation ++ token) = .ok command
    | .single => bare.map (· ++ " " ++ token) = .ok command
    | .escaped => bare.map (· ++ " " ++ escapeToken token) = .ok command
    | .powershell => body? command = some text

end Shell

namespace Literal

open Json

/-- Every scalar of a JSON text is read back from its literal, floats by their shortest spelling. -/
theorem readsScalar_of_isJson (t : Target) {s : Scalar} (h : s.IsJson) : ReadsScalar t s := by
  cases s with
  | float d => exact readsNumber (Decimal.number_write h)
  | _ => exact readsScalar_of_isPlain t h

end Literal

namespace Source

variable {r : Request}

/-- What a client library writes in front of the declaration of the payload. -/
def preamble (library : Library) (r : Request) (headers : Headers) : List String :=
  match library with
  | .fetch => ["const url = " ++ JavaScript.dialect.quote r.url ++ ";",
      "const headers = " ++ headers.block JavaScript.dialect "  " "" ++ ";"]
  | .axios => ["const axios = require('axios');", "",
      "const url = " ++ JavaScript.dialect.quote r.url ++ ";",
      "const headers = " ++ headers.block JavaScript.dialect "  " "" ++ ";"]
  | .requests => ["import requests", "", "url = " ++ Python.dialect.quote r.url,
      "headers = " ++ headers.block Python.dialect "    " ""]
  | .httpx => ["import httpx", "", "url = " ++ Python.dialect.quote r.url,
      "headers = " ++ headers.block Python.dialect "    " ""]
  | .netHttp => ["require 'net/http'", "require 'uri'", "require 'json'", "",
      "uri = URI(" ++ Ruby.dialect.quote r.url ++ ")", "",
      "http = Net::HTTP.new(uri.host, uri.port)", "http.use_ssl = uri.scheme == 'https'", "",
      Ruby.requestLine r] ++ headers.map fun (name, value) =>
        "request[" ++ Ruby.dialect.quote name ++ "] = " ++ Ruby.dialect.quote value
  | .httparty => ["require 'httparty'", "require 'json'", ""]

/-- A snippet with a structured payload declares it right behind its preamble. -/
theorem source_structured (library : Library) (headers : Headers) {v : Value}
    (h : Payload.ofRequest? r = some (.structured v)) :
    ∃ after, after ≠ [] ∧ library.source r headers = ofLines (preamble library r headers ++
      (library.payloadWords ++ (Payload.structured v).literal library.target.dialect ++
        library.lineEnd) :: after) := by
  cases library with
  | fetch =>
    simp only [Library.source, JavaScript.fetch, JavaScript.declarations, h, preamble,
      List.cons_append, List.nil_append]
    exact ⟨_, List.cons_ne_nil _ _, rfl⟩
  | axios =>
    simp only [Library.source, JavaScript.axios, JavaScript.declarations, h, preamble,
      List.cons_append, List.nil_append]
    exact ⟨_, List.cons_ne_nil _ _, rfl⟩
  | requests =>
    simp only [Library.source, Python.requests, Python.opening, h, preamble, Library.lineEnd,
      String.append_empty, List.cons_append, List.nil_append]
    exact ⟨_, List.cons_ne_nil _ _, rfl⟩
  | httpx =>
    simp only [Library.source, Python.httpx, Python.opening, h, preamble, Library.lineEnd,
      String.append_empty, List.cons_append, List.nil_append]
    exact ⟨_, List.cons_ne_nil _ _, rfl⟩
  | netHttp =>
    simp only [Library.source, Ruby.netHttp, Ruby.bodyLines, h, preamble, Library.lineEnd,
      String.append_empty, List.cons_append, List.nil_append, List.append_assoc]
    exact ⟨_, List.cons_ne_nil _ _, rfl⟩
  | httparty =>
    simp only [Library.source, Ruby.httparty, h, preamble, Library.lineEnd,
      String.append_empty, List.cons_append, List.nil_append]
    exact ⟨_, List.cons_ne_nil _ _, rfl⟩

/-- A verb that carries a body is written in a Net::HTTP snippet as the name of a class. -/
theorem skips_requestLine {body : String} (sent : r.sentBody? = some body) :
    Skips Ruby.dialect "payload = ".toList (Ruby.requestLine r) := by
  have names : ∀ verb ∈ Request.mutatingVerbs, standardVerbs.contains verb = true ∧
      Inert Ruby.dialect
        ("request = Net::HTTP::" ++ Text.capitalize verb ++ ".new(uri)").toList := by decide
  have mutating : r.verb ∈ Request.mutatingVerbs := by
    by_contra other
    simp [Request.sentBody?, other] at sent
  obtain ⟨standard, inert⟩ := names r.verb mutating
  rw [Ruby.requestLine, Request.isStandard, if_pos standard]
  refine skips_code (t := .ruby) ?_ inert
  simp [apart]

/-- The URL and the headers in JavaScript. -/
theorem skips_javascript (r : Request) (headers : Headers) :
    Skips JavaScript.dialect "const payload = ".toList
        ("const url = " ++ JavaScript.dialect.quote r.url ++ ";") ∧
      Skips JavaScript.dialect "const payload = ".toList
        ("const headers = " ++ headers.block JavaScript.dialect "  " "" ++ ";") :=
  ⟨skips_quote (t := .javascript) rfl (by decide) (by decide) (by decide),
    skips_block (t := .javascript) (by decide) (by decide) (by decide) (by decide) (by decide)
      (by decide) headers⟩

/-- The URL and the headers in Python. -/
theorem skips_python (r : Request) (headers : Headers) :
    Skips Python.dialect "payload = ".toList ("url = " ++ Python.dialect.quote r.url) ∧
      Skips Python.dialect "payload = ".toList
        ("headers = " ++ headers.block Python.dialect "    " "") := by
  have block : Skips Python.dialect "payload = ".toList
      ("headers = " ++ headers.block Python.dialect "    " "" ++ "") :=
    skips_block (t := .python) (by decide) (by decide) (by decide) (by decide) (by decide)
      (by decide) headers
  rw [String.append_empty] at block
  exact ⟨skips_quote (t := .python) String.append_empty.symm (by decide) (by decide)
    (by decide), block⟩

theorem skips_require {line s : String} (text : line = "require " ++ Ruby.dialect.quote s ++ "") :
    Skips Ruby.dialect "payload = ".toList line :=
  skips_quote (t := .ruby) text (by decide) (by decide) (by decide)

/-- A header of a Net::HTTP request. -/
theorem skips_assignment (name value : String) :
    Skips Ruby.dialect "payload = ".toList
      ("request[" ++ Ruby.dialect.quote name ++ "] = " ++ Ruby.dialect.quote value) :=
  passes_pair (t := .ruby) (by decide) (by decide) (by decide) (by decide) name value (by decide)

/-- The search gets over the whole preamble. -/
theorem skips_preamble (library : Library) {body : String} (sent : r.sentBody? = some body)
    (headers : Headers) : ∀ line ∈ preamble library r headers,
      Skips library.target.dialect library.payloadWords.toList line := by
  cases library with
  | fetch =>
    simp only [preamble, List.forall_mem_cons]
    exact ⟨(skips_javascript r headers).1, (skips_javascript r headers).2, by simp⟩
  | axios =>
    simp only [preamble, List.forall_mem_cons]
    exact ⟨skips_quote (t := .javascript)
        (show _ = "const axios = require(" ++ Target.javascript.dialect.quote "axios" ++ ");" by
          decide) (by decide) (by decide) (by decide),
      skips_code (t := .javascript) (by decide) (by decide), (skips_javascript r headers).1,
      (skips_javascript r headers).2, by simp⟩
  | requests | httpx =>
    simp only [preamble, List.forall_mem_cons]
    exact ⟨skips_code (t := .python) (by decide) (by decide),
      skips_code (t := .python) (by decide) (by decide), (skips_python r headers).1,
      (skips_python r headers).2, by simp⟩
  | netHttp =>
    have blank : Skips Ruby.dialect "payload = ".toList "" :=
      skips_code (t := .ruby) (by decide) (by decide)
    simp only [preamble, List.forall_mem_append, List.forall_mem_cons, List.forall_mem_map]
    refine ⟨⟨skips_require (s := "net/http") (by decide), skips_require (s := "uri") (by decide),
      skips_require (s := "json") (by decide), blank, ?_, blank, ?_, ?_, blank,
      skips_requestLine sent, by simp⟩, fun header _ => skips_assignment header.1 header.2⟩
    · exact skips_quote (t := .ruby) rfl (by decide) (by decide) (by decide)
    · exact skips_code (t := .ruby) (by decide) (by decide)
    · exact skips_quote (t := .ruby)
        (show _ = "http.use_ssl = uri.scheme == " ++ Ruby.dialect.quote "https" ++ "" by decide)
        (by decide) (by decide) (by decide)
  | httparty =>
    simp only [preamble, List.forall_mem_cons]
    exact ⟨skips_require (s := "httparty") (by decide), skips_require (s := "json") (by decide),
      skips_code (t := .ruby) (by decide) (by decide), by simp⟩

/-- The payload of a snippet is the value of the body, down to the depth bound. -/
theorem payload?_source (library : Library) {body : String} (sent : r.sentBody? = some body)
    {v : Value} (read : Body.value? body = some v) (headers : Headers) :
    library.payload? (library.source r headers) = some (v.prune Payload.levels) := by
  have payload : Payload.ofRequest? r = some (.structured v) := by
    simp [Payload.ofRequest?, Payload.ofBody, sent, read]
  obtain ⟨after, more, source⟩ := source_structured library headers payload
  have restores : Literal.Restores library.target
      ((Payload.structured v).literal library.target.dialect) (v.prune Payload.levels) :=
    Literal.restores_render (fun _ => Literal.readsScalar_of_isJson library.target) []
      (Body.value?_spec read).1 Payload.levels 0
  have stop : ∀ rest, Json.Ends (library.lineEnd.toList ++ '\n' :: rest) := by
    intro rest
    cases library with
    | fetch | axios => exact Json.ends_cons (.inr (.inr (.inr rfl))) _
    | _ => exact (Json.starts_cons _ _ _).mpr (.inl rfl)
  have named : library.payloadWords ≠ "" := by
    cases library <;> decide
  rw [source]
  refine declared?_ofLines named (skips_preamble library sent headers) more fun rest => ?_
  exact restores.2 _ _ (by rw [List.length_append]; omega) (by rw [List.length_append]; omega)
    (stop rest)

end Source

namespace Shell

variable {r : Request}

theorem join_concat (sep last : String) {parts : List String} (nonempty : parts ≠ []) :
    Text.join sep (parts ++ [last]) = Text.join sep parts ++ sep ++ last := by
  induction parts with
  | nil => exact absurd rfl nonempty
  | cons part parts ih =>
    cases parts with
    | nil => rfl
    | cons next parts =>
      have others := ih (by simp)
      simp only [List.cons_append] at others ⊢
      rw [Text.join_cons_cons, Text.join_cons_cons, others]
      simp [String.append_assoc]

/-- The token of the body stands behind all others. -/
theorem curlTokens_sent {body : String} (sent : r.sentBody? = some body) (headers : Headers) :
    curlTokens r headers =
      curlTokens { r with body := none } headers ++ ["-d '" ++ Body.compact body ++ "'"] := by
  have none : Request.sentBody? { r with body := none } = none := by
    unfold Request.sentBody?
    split <;> rfl
  simp [curlTokens, sent, none, Request.verb]

theorem result_format (style : Style) (r : Request) (headers : Headers) :
    (format style r headers).result = .ok (command style r headers) := by
  refine Step.result_play_of_forall _ _ fun fault mem => ?_
  unfold steps Body.steps at mem
  split at mem
  · split at mem <;> simp at mem
  · simp at mem

/-- PowerShell declares the body in a literal of its own. -/
theorem body?_powershellCall {body : String} (sent : r.sentBody? = some body) (headers : Headers) :
    body? (powershellCall r headers) = some (Body.compact body) := by
  have split : powershellCall r headers =
      ofLines ((["$headers = @\x7b"] ++ headers.map (fun (name, value) =>
          "    " ++ powershellQuote name ++ " = " ++ powershellQuote value) ++ ["\x7d"]) ++
        ("$body = " ++ powershellQuote (Body.compact body) ++ "") ::
          ["Invoke-WebRequest -Uri " ++ powershellQuote r.url ++ " -Method " ++ r.verb
            ++ " -Headers $headers" ++ " -Body $body -ContentType 'application/json'"]) := by
    simp [powershellCall, sent, ofLines]
  rw [split]
  refine Source.declared?_ofLines (by decide) ?_ (by simp) fun rest => ?_
  · simp only [List.forall_mem_append, List.forall_mem_singleton, List.forall_mem_map]
    refine ⟨⟨Source.skips_code (t := .powershell) (by decide) (by decide), fun header _ => ?_⟩,
      Source.skips_code (t := .powershell) (by decide) (by decide)⟩
    exact Source.passes_pair (t := .powershell) (by decide) (by decide) (by decide) (by decide)
      header.1 header.2 (by decide)
  · exact Literal.string?_quote .powershell _ fun _ => by simp [Target.dialect]

theorem sends_compact (style : Style) {body : String} (sent : r.sentBody? = some body)
    (headers : Headers) : Sends style r headers (Body.compact body) := by
  have tokens := curlTokens_sent sent headers
  have some : curlTokens { r with body := none } headers ≠ [] := by simp [curlTokens]
  refine ⟨command style r headers, result_format style r headers, ?_⟩
  cases style with
  | multiline | single =>
    simp only [result_format, Except.map, command, tokens]
    rw [join_concat _ _ some]
  | escaped =>
    simp only [result_format, Except.map, command, tokens, List.map_append, List.map_singleton]
    rw [join_concat _ _ (by simpa using some)]
  | powershell => exact body?_powershellCall sent headers

end Shell

namespace Body

/-- The number 1 in so many lists. -/
def wrapped : Nat → Value
  | 0 => .int 1
  | n + 1 => .list [wrapped n]

/-- A request with the number 1 in 33 lists. -/
def deep : Request :=
  ⟨"POST", "/", [], some "[[[[[[[[[[[[[[[[[[[[[[[[[[[[[[[[[1]]]]]]]]]]]]]]]]]]]]]]]]]]]]]]]]]"⟩

theorem prune_wrapped (n : Nat) : (wrapped n).prune n ≠ wrapped n := by
  induction n with
  | zero => exact fun same => nomatch same
  | succ n ih =>
    intro same
    exact ih (List.cons.inj (Value.list.inj same)).1

/-- A snippet does not always declare the value of the body as a whole: in the one for `deep` there
is null in the place of the number. -/
theorem deep_truncated :
    ¬∀ (library : Library) (r : Request) (headers : Headers) (body : String) (v : Value),
      r.sentBody? = some body → (load (some body)).result = .ok (some v) →
        ∃ source, (library.emit r headers).result = .ok source ∧
          library.payload? source = some v := by
  intro whole
  have read : value? "[[[[[[[[[[[[[[[[[[[[[[[[[[[[[[[[[1]]]]]]]]]]]]]]]]]]]]]]]]]]]]]]]]]" =
      some (wrapped 33) := rfl
  obtain ⟨source, written, declared⟩ := whole .requests deep [] _ _ rfl
    (by rw [result_load, read])
  rw [Library.result_emit, Except.ok.injEq] at written
  rw [← written, Source.payload?_source .requests rfl read, Option.some.injEq] at declared
  exact prune_wrapped 33 declared

/-- Every rendering of a request with a JSON body sends one and the same value. The curl styles and
PowerShell send a text that is read as the value of the body; the snippet of each library declares
that value, with null in the place of every part that lies inside exactly 33 containers. So the
snippets and the commands agree in full when no part lies inside more than 32 containers. -/
theorem renderings_agree {r : Request} {body : String} {v : Value}
    (sent : r.sentBody? = some body) (accepted : (load (some body)).result = .ok (some v))
    (headers : Headers) :
    ∃ text, (load (some text)).result = .ok (some v) ∧
      (∀ style, Shell.Sends style r headers text) ∧
      ∀ library : Library, ∃ source, (library.emit r headers).result = .ok source ∧
        library.payload? source = some (v.prune 33) ∧
        (v.NestedWithin 32 → library.payload? source = some v) := by
  have read : value? body = some v := by
    rw [result_load] at accepted
    exact Except.ok.inj accepted
  refine ⟨compact body, ?_, fun style => Shell.sends_compact style sent headers,
    fun library => ⟨_, library.result_emit r headers, ?_⟩⟩
  · rw [result_load, value?_compact read]
  · have declared := Source.payload?_source library sent read headers
    refine ⟨declared, fun nested => ?_⟩
    rw [declared]
    exact congrArg some (Value.prune_of_nestedWithin nested)

/-- A body with a float, quotes and a newline. -/
def quotedBody : String := "\x7b\"it's\": [-1.50e3, \"'\\n\"], \"b\": \x7b\x7d\x7d"

/-- A request with that body. -/
def quoted : Request := ⟨"put", "/", [], some quotedBody⟩

/-- The value of `quotedBody`. -/
def quotedValue : Value :=
  .object [("it's", .list [.scalar (.float (Double.ofDecimal true 150 1)), .text "'\n"]),
    ("b", .object [])]

/-- The conditions of `renderings_agree` hold for `quoted`, whose body every rendering sends as a
whole. -/
theorem quoted_agrees :
    quoted.sentBody? = some quotedBody ∧
      (load (some quotedBody)).result = .ok (some quotedValue) ∧
      ∃ text, (load (some text)).result = .ok (some quotedValue) ∧
        (∀ style, Shell.Sends style quoted [("A'", "\n")] text) ∧
        ∀ library : Library, ∃ source,
          (library.emit quoted [("A'", "\n")]).result = .ok source ∧
          library.payload? source = some quotedValue := by
  have sent : quoted.sentBody? = some quotedBody := rfl
  have read : value? quotedBody = some quotedValue := rfl
  have accepted : (load (some quotedBody)).result = .ok (some quotedValue) := by
    rw [result_load, read]
  have nested : quotedValue.NestedWithin 32 := by
    simp [quotedValue, Value.object, Value.text]
  obtain ⟨text, same, sends, declares⟩ := renderings_agree sent accepted [("A'", "\n")]
  refine ⟨sent, accepted, text, same, sends, fun library => ?_⟩
  obtain ⟨source, written, -, declared⟩ := declares library
  exact ⟨source, written, declared nested⟩

end Body

end RequestWriter
