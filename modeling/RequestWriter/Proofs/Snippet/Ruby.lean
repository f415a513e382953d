import RequestWriter.Proofs.Literal.Quotation
import RequestWriter.Proofs.Snippet.Composition

/-!
# Ruby snippets as Ruby reads them

Between single quotes Ruby knows two escapes only, one for the backslash and one for the quote. The
snippets are written with an escape for the newline as well, which Ruby takes for a backslash and a
letter. So Ruby reads the texts of a request as they are, except for their newlines.
-/

namespace RequestWriter.Ruby

open Piece

/-- How Ruby reads strings between single quotes: a backslash takes the meaning from a backslash and
from a quote, and stands for itself in front of any other character. -/
def quotation : Quotation where
  isMark c := c == '\''
  pair? a b := if a = '\\' ∧ (b = '\\' ∨ b = '\'') then some b else none

/-- A character as Ruby reads it back: two characters for a newline. -/
def readBack (c : Char) : List Char := if c = '\n' then ['\\', 'n'] else [c]

/-- What Ruby reads for a text that has been written as a literal. -/
def shown (s : String) : String := String.ofList (s.toList.flatMap readBack)

variable {read rest : List Char} {s : String} {r : Request} {headers : Headers}
variable {a : List String}

section Reading

theorem length_readBack (cs : List Char) :
    (cs.flatMap readBack).length = cs.length + cs.count '\n' := by
  induction cs with
  | nil => rfl
  | cons c cs ih =>
    rw [List.flatMap_cons, List.length_append, ih, List.length_cons]
    by_cases newline : c = '\n'
    · subst newline
      rw [List.count_cons_self]
      simp only [readBack, if_true, List.length_cons, List.length_nil]
      omega
    · rw [List.count_cons_of_ne newline]
      simp only [readBack, newline, if_false, List.length_singleton]
      omega

/-- A text is longer by one character for each of its newlines. -/
theorem flatMap_readBack_eq_iff {cs : List Char} : cs.flatMap readBack = cs ↔ '\n' ∉ cs := by
  constructor
  · intro same
    have lengths := length_readBack cs
    rw [same] at lengths
    exact List.count_eq_zero.mp (by omega)
  · intro clean
    induction cs with
    | nil => rfl
    | cons c cs ih =>
      obtain ⟨other, later⟩ := not_or.mp (mt List.mem_cons.mpr clean)
      rw [List.flatMap_cons, ih later, readBack, if_neg (Ne.symm other), List.singleton_append]

/-- Ruby reads the text itself exactly when the text stands on one line. -/
theorem shown_eq_iff : shown s = s ↔ '\n' ∉ s.toList := by
  rw [shown, ← flatMap_readBack_eq_iff, ← String.toList_inj, String.toList_ofList]

theorem map_shown_eq_iff {texts : List String} :
    texts.map shown = texts ↔ ∀ text ∈ texts, '\n' ∉ text.toList := by
  induction texts with
  | nil => simp
  | cons text texts ih =>
    rw [List.map_cons, List.cons.injEq, shown_eq_iff, ih, List.forall_mem_cons]

theorem strings?_escapeChar (c : Char) (read rest : List Char) :
    quotation.strings? (some read) (dialect.escapeChar c ++ rest) =
      quotation.strings? (some (read ++ readBack c)) rest := by
  unfold Dialect.escapeChar
  split
  · next isBackslash =>
    obtain ⟨rfl, -⟩ := isBackslash
    exact Quotation.strings?_pair rfl read rest
  · next noBackslash =>
    have noBackslash : c ≠ '\\' := fun eq => noBackslash ⟨eq, rfl⟩
    split
    · next isQuote =>
      obtain rfl : c = '\'' := isQuote
      exact Quotation.strings?_pair rfl read rest
    · next noQuote =>
      have alone : ∀ cs, quotation.Alone c cs := by
        intro cs b _
        simp [quotation, noBackslash]
      have plain : quotation.isMark c = false := beq_eq_false_iff_ne.mpr noQuote
      split
      · next isNewline =>
        -- The backslash stands for itself in front of the letter, and the letter does too.
        obtain ⟨rfl, -⟩ := isNewline
        have letter : quotation.Alone 'n' rest := fun b _ => rfl
        have backslash : quotation.Alone '\\' ('n' :: rest) := by
          rintro b ⟨⟩
          rfl
        rw [List.cons_append, List.cons_append, List.nil_append,
          Quotation.strings?_plain rfl backslash, Quotation.strings?_plain rfl letter,
          List.append_assoc]
        rfl
      · next noNewline =>
        have noNewline : c ≠ '\n' := fun eq => noNewline ⟨eq, rfl⟩
        rw [readBack, if_neg noNewline]
        exact Quotation.strings?_plain plain (alone rest) read

theorem strings?_escaped (cs read rest : List Char) :
    quotation.strings? (some read) (cs.flatMap dialect.escapeChar ++ '\'' :: rest) =
      (quotation.strings? none rest).map (String.ofList (read ++ cs.flatMap readBack) :: ·) := by
  induction cs generalizing read with
  | nil =>
    rw [List.flatMap_nil, List.flatMap_nil, List.append_nil]
    exact Quotation.strings?_close rfl (fun b _ => rfl) read
  | cons c cs ih =>
    rw [List.flatMap_cons, List.flatMap_cons, List.append_assoc, strings?_escapeChar, ih,
      List.append_assoc]

/-- A source that is put together from literals is read as what these show. -/
theorem strings?_composed (h : Composed dialect s a) (rest : List Char) :
    quotation.strings? none (s.toList ++ rest) =
      (quotation.strings? none rest).map (a.map shown ++ ·) := by
  induction h generalizing rest with
  | code plain =>
    have code : quotation.IsCode _ := fun c mem => beq_eq_false_iff_ne.mpr (plain c mem).1
    rw [Quotation.strings?_code code]
    simp
  | quote s =>
    rw [Dialect.toList_quote, List.cons_append, List.append_assoc, List.singleton_append,
      Quotation.strings?_mark rfl]
    exact strings?_escaped s.toList [] rest
  | append _ _ ih ih' =>
    rw [String.toList_append, List.append_assoc, ih, ih', Option.map_map]
    simp [Function.comp_def]

end Reading

section Snippets

/-- The literal of a payload. -/
theorem composed_literal {v : Value} (built : v.Built Scalar.IsJson) :
    Composed dialect ((Payload.structured v).literal dialect) (v.texts Payload.levels) :=
  .render .ruby [] built Payload.levels 0

theorem composed_requestLine (r : Request) : Composed dialect (requestLine r) r.otherVerb := by
  unfold requestLine Request.otherVerb
  cases standard : r.isStandard with
  | true =>
    have name := Composed.code (d := dialect) (unmarked_verb standard).2
    exact name.between "request = Net::HTTP::" ".new(uri)" (by decide) (by decide)
  | false =>
    exact (Composed.quote r.verb).between "request = Net::HTTPGenericRequest.new("
      ", false, true, uri)" (by decide) (by decide)

theorem composed_bodyLines {p : Option Payload} (json : IsJson p) :
    ComposedAll dialect (bodyLines p) (Payload.structuredTexts p ++ Payload.rawTexts p) := by
  match p with
  | none => exact .nil
  | some (.raw s) =>
    exact .singleton ((Composed.quote s).behind "request.body = " (by decide))
  | some (.structured v) =>
    have payload := (composed_literal (json v rfl)).behind "payload = " (by decide)
    have sent : ComposedAll dialect ["request.body = payload.to_json"] [] := .code (by decide)
    exact .cons payload sent

/-- A line that is the same for every request and has a literal in it. -/
theorem composed_constant {line : String} (pre s : String) (text : line = pre ++ dialect.quote s)
    (code : Unmarked pre.toList) : Composed dialect line [s] := by
  rw [text]
  exact (Composed.quote s).behind pre code

theorem composed_netHttp (r : Request) (headers : Headers) :
    Composed dialect (netHttp r headers) (Library.netHttp.literals r headers) := by
  have blank : Composed dialect "" [] := .code (by decide)
  have required : ComposedAll dialect ["require 'net/http'", "require 'uri'", "require 'json'", ""]
      ["net/http", "uri", "json"] :=
    .cons (composed_constant "require " "net/http" (by decide) (by decide))
      (.cons (composed_constant "require " "uri" (by decide) (by decide))
        (.cons (composed_constant "require " "json" (by decide) (by decide))
          (.singleton blank)))
  have url := (Composed.quote (d := dialect) r.url).between "uri = URI(" ")" (by decide) (by decide)
  have host : Composed dialect "http = Net::HTTP.new(uri.host, uri.port)" [] :=
    .code (by decide)
  have scheme : Composed dialect "http.use_ssl = uri.scheme == 'https'" ["https"] :=
    composed_constant "http.use_ssl = uri.scheme == " "https" (by decide) (by decide)
  have opened := ComposedAll.cons url (.cons blank (.cons host (.cons scheme (.cons blank
    (.singleton (composed_requestLine r))))))
  have assigned := ComposedAll.map (d := dialect) fun (header : String × String)
      (_ : header ∈ headers) =>
    ((Composed.quote header.1).between "request[" "] = " (by decide) (by decide)).append
      (.quote header.2)
  have closing : ComposedAll dialect ["", "response = http.request(request)",
      "puts JSON.parse(response.body)"] [] := .code (by decide)
  have lines := (((required.append opened).append assigned).append
    (composed_bodyLines (isJson_ofRequest? r))).append closing
  refine (lines.join "\n" (by decide)).congr ?_
  simp [Library.literals, Headers.texts]

theorem composed_partyCall {arguments : List String} (h : ComposedAll dialect arguments a) :
    ComposedAll dialect (partyCall r arguments) (r.otherVerb ++ a) := by
  have joined := ComposedAll.singleton (h.join ",\n" (by decide))
  unfold partyCall Request.otherVerb
  cases standard : r.isStandard with
  | true =>
    have name := (Composed.code (d := dialect) (unmarked_verb standard).1).between
      "response = HTTParty." "(" (by decide) (by decide)
    have bracket : ComposedAll dialect [")"] [] := .code (by decide)
    exact (ComposedAll.cons name (joined.append bracket)).congr (by simp)
  | false =>
    have method := (Composed.quote (d := dialect) r.verb).behind "  METHOD = " (by decide)
    have front : Composed dialect "class CustomRequest < Net::HTTPRequest" [] :=
      .code (by decide)
    have body : ComposedAll dialect ["  REQUEST_HAS_BODY = false", "  RESPONSE_HAS_BODY = true",
      "end", ""] [] := .code (by decide)
    have call : ComposedAll dialect ["response = HTTParty::Request.new(", "  CustomRequest,"] [] :=
      .code (by decide)
    have bracket : ComposedAll dialect [").perform"] [] := .code (by decide)
    have whole := (ComposedAll.cons front (.cons method body)).append
      ((call.append joined).append bracket)
    exact whole.congr (by simp)

/-- The lines that declare a payload for HTTParty. -/
theorem composed_declared (p : Option Payload) : IsJson p →
    ComposedAll dialect (match p with
      | some (.structured v) => ["payload = " ++ (Payload.structured v).literal dialect, ""]
      | _ => []) (Payload.structuredTexts p) := by
  -- Were the condition a binder, the match of the statement would be over it as well.
  intro json
  match p with
  | none | some (.raw _) => exact .nil
  | some (.structured v) =>
    have payload := (composed_literal (json v rfl)).behind "payload = " (by decide)
    have blank : Composed dialect "" [] := .code (by decide)
    exact (ComposedAll.cons payload (.singleton blank)).congr (List.append_nil _)

/-- The argument of HTTParty for the body. -/
theorem composed_body (p : Option Payload) :
    ComposedAll dialect (p.map fun p => "  body: " ++ bodyExpression p).toList
      (Payload.rawTexts p) := by
  match p with
  | none => exact .nil
  | some (.raw s) => exact .singleton ((Composed.quote s).behind "  body: " (by decide))
  | some (.structured _) =>
    have sent : ComposedAll dialect ["  body: payload.to_json"] [] := .code (by decide)
    exact sent

theorem composed_httparty (r : Request) (headers : Headers) :
    Composed dialect (httparty r headers) (Library.httparty.literals r headers) := by
  have blank : Composed dialect "" [] := .code (by decide)
  have required : ComposedAll dialect ["require 'httparty'", "require 'json'", ""]
      ["httparty", "json"] :=
    .cons (composed_constant "require " "httparty" (by decide) (by decide))
      (.cons (composed_constant "require " "json" (by decide) (by decide)) (.singleton blank))
  have url := (Composed.quote (d := dialect) r.url).behind "  " (by decide)
  have block := (Composed.headers .ruby "    " "  " (by decide) (by decide) headers).behind
    "  headers: " (by decide)
  have arguments := (ComposedAll.cons url (.singleton block)).append
    (composed_body (Payload.ofRequest? r))
  have closing : ComposedAll dialect ["", "puts JSON.parse(response.body)"] [] :=
    .code (by decide)
  have lines := ((required.append (composed_declared _ (isJson_ofRequest? r))).append
    (composed_partyCall (r := r) arguments)).append closing
  have whole := lines.join "\n" (by decide)
  exact whole.congr (by simp [Library.literals])

/-- The snippets for Ruby are put together from the texts of the request. -/
theorem composed_source {library : Library} (ruby : library.target = .ruby) (r : Request)
    (headers : Headers) :
    Composed dialect (library.source r headers) (library.literals r headers) := by
  cases library with
  | netHttp => exact composed_netHttp r headers
  | httparty => exact composed_httparty r headers
  | _ => cases ruby

theorem ofSource?_source {library : Library} (ruby : library.target = .ruby) (r : Request)
    (headers : Headers) :
    quotation.ofSource? (library.source r headers) =
      some ((library.literals r headers).map shown) := by
  have whole := strings?_composed (composed_source ruby r headers) []
  rwa [List.append_nil, Quotation.strings?, Option.map_some, List.append_nil] at whole

/-- Ruby reads the strings of a snippet, in their order, as the url, the names and values of the
headers, the keys and strings of a structured payload or the raw one, the verb where it is written
as a string, and the constants of the library, with a backslash and a letter for each newline. So
it reads all of them as they are exactly when none holds a newline. -/
theorem strings_of_snippet {library : Library} (ruby : library.target = .ruby) (r : Request)
    (headers : Headers) :
    ∃ source, (library.emit r headers).result = .ok source ∧
      quotation.ofSource? source = some ((library.literals r headers).map shown) ∧
        (quotation.ofSource? source = some (library.literals r headers) ↔
          ∀ text ∈ library.literals r headers, '\n' ∉ text.toList) := by
  have read := ofSource?_source ruby r headers
  refine ⟨_, library.result_emit r headers, read, ?_⟩
  rw [read, Option.some.injEq, map_shown_eq_iff]

/-- A quote and a backslash come through, a newline does not. -/
theorem note_shown : Library.netHttp.target = .ruby ∧
    ∃ source, (Library.netHttp.emit ⟨"POST", "/notes", [], some "one\ntwo"⟩
        [("X-Note", "it's a \\")]).result = .ok source ∧
      quotation.ofSource? source = some ["net/http", "uri", "json", "/notes", "https", "X-Note",
        "it's a \\", "one\\ntwo"] := by
  have ruby : Library.netHttp.target = .ruby := rfl
  obtain ⟨source, result, strings, -⟩ := strings_of_snippet ruby
    ⟨"POST", "/notes", [], some "one\ntwo"⟩ [("X-Note", "it's a \\")]
  exact ⟨ruby, source, result, strings.trans (by decide +kernel)⟩

/-- A body of two lines is sent as one line. -/
theorem newline_lost :
    ¬∀ (library : Library) (r : Request) (headers : Headers), library.target = .ruby →
      ∃ source, (library.emit r headers).result = .ok source ∧
        quotation.ofSource? source = some (library.literals r headers) := by
  intro all
  obtain ⟨source, result, strings⟩ :=
    all .netHttp ⟨"POST", "https://api.example.com/notes", [], some "one\ntwo"⟩
      [("Content-Type", "text/plain")] rfl
  rw [Library.result_emit] at result
  cases result
  rw [ofSource?_source rfl, Option.some.injEq, map_shown_eq_iff] at strings
  exact strings "one\ntwo" (by decide +kernel) (by decide)

end Snippets

end RequestWriter.Ruby
