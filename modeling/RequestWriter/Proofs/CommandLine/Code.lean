import RequestWriter.Proofs.CommandLine.Outcome
import RequestWriter.Proofs.CommandLine.Words
import RequestWriter.Proofs.Runner
import RequestWriter.Snippet.Closed
import RequestWriter.Yaml.Load

/-!
# The command and the page

A request can be described by the options of a command or by the data of a page. The command splits
its headers, passes the URL through the place where values are filled in, and takes an empty
credential for none; the page reads loose data field by field. Both come to the same request with
the same headers, and what the page is answered is what the command shows.
-/

namespace RequestWriter

/-- The page is answered by the outcome of writing code for what it posts. -/
theorem Runner.result_generateCode (language : String) (variant : Option String) (r : Request)
    (credential : Option Credential) :
    (generateCode (.text language) (variant.elim .null .text) (.ok r) (.ok credential)).result =
      match (Catalog.generate language variant r
        (Headers.prepare r.headers credential)).result with
      | .ok snippet => .ok (.code snippet.source)
      | .error fault => (replyToFault fault).result := by
  have written : generateCode (.text language) (variant.elim .null .text) (.ok r) (.ok credential) =
      reply (Catalog.generate language variant r (Headers.prepare r.headers credential)) := by
    unfold generateCode
    rw [Catalog.resolveLoose_text]
    rfl
  exact (congrArg Logged.result written).trans (result_reply _)

/-- A foreseen fault is answered with its message. -/
theorem Runner.result_replyToFault {fault : Fault} {message : String}
    (foreseen : fault.message? = some message) :
    (replyToFault fault).result = .ok (.error message) := by
  cases fault with
  | invalid model issues => cases foreseen
  | _ =>
    unfold replyToFault
    simp only [foreseen, Logged.result_pure]

namespace CommandLine

/-- A header as it is typed: name and value around the first colon, without the blanks around
them. -/
def typedHeader (value : String) : String × String :=
  (Text.strip (String.ofList (value.toList.takeWhile (· != ':'))),
    Text.strip (String.ofList (value.toList.dropWhile (· != ':')).tail))

/-- The headers that are typed. A name that is repeated keeps its first place and takes its last
value. -/
def typedHeaders (values : List String) : Headers :=
  let pairs := values.map typedHeader
  (pairs.map Prod.fst).eraseDups.map fun name => (name, Entries.lastAssigned "" name pairs)

theorem typedHeaders_eq (values : List String) :
    typedHeaders values = Entries.ofPairs (values.map typedHeader) :=
  (Entries.ofPairs_eq_map "" _).symm

namespace RequestOptions

variable {o : RequestOptions} {url : String}

/-- The options describe a request to a URL as it stands. -/
structure IsDirect (o : RequestOptions) (url : String) : Prop where
  document : o.document = none
  params : o.params = []
  address : o.url = some url
  nonempty : url ≠ ""
  colons : ∀ value ∈ o.headers, ':' ∈ value.toList

/-- The request of direct options. -/
def request (o : RequestOptions) (url : String) : Request :=
  ⟨o.method, url, typedHeaders o.headers, o.data⟩

/-- The data by which a page describes the same request. -/
def posted (o : RequestOptions) (url : String) : List (String × Value) :=
  [("method", .text o.method), ("url", .text url),
    ("headers", Field.textObject (typedHeaders o.headers)), ("body", o.data.elim .null .text)]

/-- What a page posts for the same credential. Without a value it may also leave out the
credential. -/
inductive PostsCredential (o : RequestOptions) : Runner.Auth → Prop
  | given {value : String} (h : o.credentialValue = some value) : PostsCredential o
      (.posted fun _ => [("type", .text o.credentialKind.name), ("value", .text value)])
  | kind (h : o.credentialValue = none) :
      PostsCredential o (.posted fun _ => [("type", .text o.credentialKind.name)])
  | absent (h : o.credentialValue = none) : PostsCredential o .absent

section Page

theorem posted_isPosted (o : RequestOptions) (url : String) :
    ∀ field ∈ o.posted url, field.2.IsPosted := by
  have headers : (Field.textObject (typedHeaders o.headers)).IsPosted := by
    apply Field.isPosted_textObject
    rw [typedHeaders_eq]
    exact Entries.nodup_ofPairs _
  simp only [posted, List.forall_mem_cons]
  refine ⟨Runner.isPosted_scalar trivial, Runner.isPosted_scalar trivial, headers, ?_,
    List.forall_mem_nil _⟩
  cases o.data <;> exact Runner.isPosted_scalar trivial

/-- The page posts the request of the options. -/
theorem ofPosted_posted (o : RequestOptions) (url : String) :
    Request.ofPosted (.object (o.posted url)) = .ok (o.request url) := by
  apply Request.ofPosted_of_standsIn (posted_isPosted o url)
  obtain ⟨_, _, _, data, _⟩ := o
  cases data <;> exact ⟨rfl, rfl, rfl, rfl⟩

/-- A page that posts a credential is sent the headers of the credential of the options. -/
theorem PostsCredential.read {auth : Runner.Auth} (h : o.PostsCredential auth) :
    ∃ read, auth.credential = .ok read ∧
      ∀ headers, Headers.prepare headers read = Headers.prepare headers (credential? o) := by
  have scalar : ∀ s : String, (Value.text s).IsPosted :=
    fun _ => Runner.isPosted_scalar trivial
  have whole : ∀ {data : List (String × Value)} {c : Credential},
      (∀ field ∈ data, field.2.IsPosted) → c.StandsIn data →
        (Runner.Auth.posted fun _ => data).credential = .ok (some c) :=
    fun posted standsIn => (Credential.ofMarked_of_standsIn (fun _ => posted) standsIn).2
      fun ⟨_, other⟩ => other standsIn
  cases h with
  | @given value h =>
    refine ⟨some ⟨o.credentialKind, value⟩, ?_, fun headers => ?_⟩
    · apply whole
      · simp [scalar]
      · exact ⟨rfl, rfl⟩
    · rw [credential?, h, Option.filter_some]
      by_cases empty : value = ""
      · rw [if_neg (by simpa using empty), empty]
        rfl
      · rw [if_pos (by simpa using empty)]
        rfl
  | kind h =>
    refine ⟨some ⟨o.credentialKind, ""⟩, ?_, fun headers => ?_⟩
    · apply whole
      · simp [scalar]
      · exact ⟨rfl, rfl⟩
    · rw [credential?, h]
      rfl
  | absent h => exact ⟨none, rfl, fun headers => by rw [credential?, h]; rfl⟩

end Page

end RequestOptions

/-- The values of the options that ask for code, by their names. -/
def codeValues (variant : Option String) (o : RequestOptions) : String → List String
  | "--variant" => variant.toList
  | "--url" => o.url.toList
  | "--method" => [o.method]
  | "--header" => o.headers
  | "--data" => o.data.toList
  | "--path" => o.path.toList
  | "--auth-type" => [o.credentialKind.name]
  | "--auth-value" => o.credentialValue.toList
  | _ => []

/-- Words that ask for code. -/
def codeWords (language : String) (variant : Option String) (o : RequestOptions) : List String :=
  spelledOut (Scope.code.listed (codeValues variant o)) [language]

section Command

variable {o : RequestOptions} {url : String}

theorem splitPairs_colon {values : List String} (colons : ∀ value ∈ values, ':' ∈ value.toList)
    (s : Scope) (what : String) :
    splitPairs s ':' what values = pure (values.map typedHeader) := by
  induction values with
  | nil => rfl
  | cons value values ih =>
    rw [List.forall_mem_cons] at colons
    rw [splitPairs, Text.cut?_of_mem colons.1]
    dsimp only
    rw [ih colons.2]
    rfl

/-- No values leave a URL as it is. -/
theorem build_noValues (url : String) : Url.build url (Url.inferParameters url []) [] = url := rfl

variable [Yaml.Loader]

theorem buildRequest_direct (direct : o.IsDirect url) (s : Scope) (ws : Workspace)
    (c : Configuration) : buildRequest s ws c o =
      pure (o.request url, Headers.prepare (typedHeaders o.headers) (credential? o)) := by
  have address : requestUrl s ws c o (paramValues []) = pure url := by
    rw [requestUrl, direct.document, direct.address, Option.filter_some,
      if_pos (by simpa using direct.nonempty)]
    exact congrArg pure (build_noValues url)
  rw [buildRequest, direct.params, splitPairs_colon direct.colons]
  change (requestUrl s ws c o (paramValues []) >>= _) = _
  rw [address, RequestOptions.request, typedHeaders_eq]
  rfl

/-- The code of a request with a mark for its lone halves. -/
def markedCode (language : String) (variant : Option String) (o : RequestOptions) (url : String) :
    Marked (Logged Snippet) := fun mark =>
  Catalog.generate language variant ((o.request url).marked mark)
    (Headers.prepare (typedHeaders o.headers) (credential? o))

variable [Python.Parser]

/-- The command writes the code for the request of its options, and shows it if it holds no lone
half. -/
theorem runCode_direct (direct : o.IsDirect url) (ws : Workspace) (c : Configuration)
    {language : String} (named : language ≠ "") (variant : Option String) :
    runCode ws c (some language) variant false o =
      Console.ofMarked (markedCode language variant o url) >>= fun found =>
        if !found.2 then
          Console.halt (.defect .notEncodable) >>= fun (_ : Unit) => Console.put found.1.source
        else Console.put found.1.source := by
  rw [runCode, Option.filter_some, if_pos (by simpa using named), buildRequest_direct direct]
  rfl

theorem run_code_failed (direct : o.IsDirect url) (ws : Workspace) (c : Configuration)
    {language : String} (named : language ≠ "") {variant : Option String} {fault : Fault}
    (fails : ∀ r headers, Catalog.generate language variant r headers = Logged.fail fault) :
    (Command.code (some language) variant false o).run ws c =
      ⟨[], [], .error (Halt.ofFault fault)⟩ := by
  have failed : markedCode language variant o url = fun _ => Logged.fail fault :=
    funext fun _ => fails _ _
  change (runCode ws c (some language) variant false o >>= fun _ => pure ws) = _
  rw [runCode_direct direct ws c named, failed]
  rfl

theorem run_code_written (direct : o.IsDirect url) (ws : Workspace) (c : Configuration)
    {language : String} (named : language ≠ "") {variant : Option String} {id name : String}
    {source : Marked String}
    (written : ∀ mark, (markedCode language variant o url mark).result =
      .ok ⟨id, name, source mark⟩) :
    ∃ records, (Command.code (some language) variant false o).run ws c =
      if Marked.isWhole source then ⟨[source Marked.firstMark], records, .ok ws⟩
      else ⟨[], records, .error (.defect .notEncodable)⟩ := by
  have whole :
      (Marked.isWhole fun mark => (markedCode language variant o url mark).result.toOption) =
        Marked.isWhole source := by
    simp [Marked.isWhole, written, Except.toOption]
  refine ⟨(markedCode language variant o url Marked.firstMark).records, ?_⟩
  change (runCode ws c (some language) variant false o >>= fun _ => pure ws) = _
  rw [runCode_direct direct ws c named, Console.ofMarked, whole]
  have first := written Marked.firstMark
  generalize markedCode language variant o url Marked.firstMark = code at first ⊢
  generalize Marked.isWhole source = whole
  obtain ⟨records, result⟩ := code
  cases first
  cases whole with
  | false =>
    change (⟨[], records ++ [] ++ [], .error (.defect .notEncodable)⟩ : Console Workspace) =
      ⟨[], records, _⟩
    rw [List.append_nil, List.append_nil]
  | true =>
    change (⟨[source Marked.firstMark], records ++ [] ++ [] ++ [], .ok ws⟩ : Console Workspace) =
      ⟨_, records, _⟩
    rw [List.append_nil, List.append_nil, List.append_nil]

end Command

section Words

theorem ofName?_name (kind : CredentialKind) :
    CredentialKind.ofName? kind.name = some kind := by
  cases kind <;> rfl

theorem getLast?_toList {α : Type} (a : Option α) : a.toList.getLast? = a := by
  cases a <;> rfl

/-- The words behind the command, taken apart. -/
def codeTyped (language : String) (variant : Option String) (o : RequestOptions) : Words :=
  ⟨Scope.code.listed (codeValues variant o), [language]⟩

variable {o : RequestOptions} {url : String}

/-- Each option takes the value that is given for it: no document is, and the kind of the credential
is one of the names on offer. -/
theorem read_codeTyped (ws : Workspace) (language : String) (variant : Option String)
    (o : RequestOptions) :
    Scope.code.read ws (codeWords language variant o) = .ok (codeTyped language variant o) := by
  have kind : ∃ kind ∈ CredentialKind.all, kind.name = o.credentialKind.name :=
    ⟨o.credentialKind, by cases o.credentialKind <;> decide, rfl⟩
  have text : ∀ {s : OptionSpec} {last : String}, s.expected = .text →
      Given.problem? ws ⟨s, last⟩ = none := by
    intro s last text
    rw [Given.problem?, text]
  apply Scope.read_listed
  · simp [Scope.options, Scope.ownOptions, requestOptions, helpOption, codeValues]
  · simp only [Scope.options, Scope.ownOptions, requestOptions, helpOption, List.cons_append,
      List.nil_append, List.forall_mem_cons]
    refine ⟨fun _ _ => text rfl, fun _ _ => rfl, fun _ _ => text rfl, fun _ _ => text rfl,
      fun _ _ => text rfl, fun _ _ => text rfl, fun _ _ => text rfl, ?document,
      fun _ _ => text rfl, ?kind, fun _ _ => text rfl, fun _ _ => rfl, List.forall_mem_nil _⟩
    case document =>
      rintro _ ⟨⟩
    case kind =>
      rintro _ ⟨⟩
      simpa [Given.problem?] using kind

theorem values_codeTyped (language : String) (variant : Option String) (o : RequestOptions) :
    ∀ name ∈ Scope.code.options.map OptionSpec.name,
      (codeTyped language variant o).values name = codeValues variant o name :=
  List.forall_mem_map.mpr fun _ known => Scope.values_listed _ _ known

/-- The options that the words give are the ones that they were made from. -/
theorem ofWords_codeTyped (direct : o.IsDirect url) (language : String) (variant : Option String) :
    RequestOptions.ofWords (codeTyped language variant o) = o := by
  have values := values_codeTyped language variant o
  simp only [Scope.options, Scope.ownOptions, requestOptions, helpOption, List.cons_append,
    List.nil_append, List.map_cons, List.forall_mem_cons, codeValues] at values
  obtain ⟨-, -, address, method, headers, data, params, document, path, kind, value, -⟩ := values
  obtain ⟨_, _, _, _, _, _, _, _, _⟩ := o
  cases direct.document
  cases direct.params
  simp [RequestOptions.ofWords, Words.value?, address, method, headers, data, params, document,
    path, kind, value, getLast?_toList, ofName?_name]

/-- The words behind the name of the command are left to the command. -/
theorem read_code (ws : Workspace) (args : List String) :
    Toolkit.read ws ("code" :: args) = .ok ⟨false, none, Command.read ws .code args⟩ := rfl

/-- Every request that can be described by options can be typed: the words that ask for its code are
read as they are meant. -/
theorem read_codeWords (direct : o.IsDirect url) (ws : Workspace) (language : String)
    (variant : Option String) : Toolkit.read ws ("code" :: codeWords language variant o) =
      .ok ⟨false, none, .ok (.code (some language) variant false o)⟩ := by
  have values := values_codeTyped language variant o
  have asked : (codeTyped language variant o).value? "--variant" = variant := by
    rw [Words.value?, values _ (by decide), codeValues, getLast?_toList]
  have unchecked : (codeTyped language variant o).has "--check" = false := by
    rw [Words.has, values _ (by decide)]
    rfl
  rw [read_code, Command.read, read_codeTyped]
  change Except.ok (Invocation.mk false none
    (Command.ofWords ws .code (codeTyped language variant o))) = _
  rw [Command.ofWords, asked, unchecked, ofWords_codeTyped direct]
  rfl

end Words

section Outcomes

variable [Yaml.Loader] [Python.Parser] [Toolkit] [Toolkit.IsUsual]
variable {ws : Workspace} {c : Configuration} {args : List String} {call : Invocation}
variable {language url : String} {o : RequestOptions}

/-- The command that writes code shows what a page is answered that posts the same request, unless
the code holds a lone half: then the page is answered, and the command ends with a fault. -/
theorem run_code_shows (read : Toolkit.read ws args = .ok call) (quiet : call.verbose = false)
    (configured : (Configuration.load ws call.configuration).result = .ok c)
    (named : language ≠ "") (variant : Option String)
    (asked : call.command = .ok (.code (some language) variant false o)) (direct : o.IsDirect url)
    {auth : Runner.Auth} (posts : o.PostsCredential auth) :
    ∃ reply : Marked Runner.Reply,
      (∀ mark, (Runner.generateCode (.text language) (variant.elim .null .text)
        ((Request.ofPosted (.object (o.posted url))).map (·.marked mark)) auth.credential).result =
          .ok (reply mark)) ∧
      (Marked.isWhole reply = true → IsPlain (reply Marked.firstMark).text →
        (run ws args).Shows ws (reply Marked.firstMark)) ∧
      (Marked.isWhole reply = false → (run ws args).exitCode = 1 ∧ (run ws args).out = "" ∧
        (run ws args).fault = some .notEncodable ∧ (run ws args).workspace = ws) := by
  obtain ⟨given, readCredential, headers⟩ := posts.read
  have answered : ∀ mark, (Runner.generateCode (.text language) (variant.elim .null .text)
      ((Request.ofPosted (.object (o.posted url))).map (·.marked mark)) auth.credential).result =
        match (markedCode language variant o url mark).result with
        | .ok snippet => .ok (.code snippet.source)
        | .error fault => (Runner.replyToFault fault).result := by
    intro mark
    rw [RequestOptions.ofPosted_posted, readCredential]
    refine (Runner.result_generateCode language variant ((o.request url).marked mark)
      given).trans ?_
    rw [headers]
    rfl
  have ran := run_of_read configured asked
  rcases Catalog.generate_cases language variant with
    ⟨fault, message, foreseen, fails⟩ | ⟨l, library, written⟩
  · have failure : Halt.ofFault fault = .failure message := by rw [Halt.ofFault, foreseen]
    rw [run_code_failed direct ws c named fails, failure] at ran
    refine ⟨fun _ => .error message, fun mark => ?_, fun _ plain => ?_, fun half => ?_⟩
    · rw [answered, markedCode, fails]
      exact Runner.result_replyToFault foreseen
    · rw [run_of_invocation read, quiet, ran, List.append_nil]
      exact shows_error plain (records_load ws call.configuration)
    · simp [Marked.isWhole] at half
  · let source : Marked String := fun mark => library.source ((o.request url).marked mark)
      (Headers.prepare (typedHeaders o.headers) (credential? o))
    have whole : Marked.isWhole (fun mark => Runner.Reply.code (source mark)) =
        Marked.isWhole source := by
      simp [Marked.isWhole]
    have code : ∀ mark, (markedCode language variant o url mark).result =
        .ok ⟨l.id, Catalog.offered l variant, source mark⟩ := fun _ => written _ _
    obtain ⟨records, shown⟩ := run_code_written direct ws c named code
    rw [shown] at ran
    refine ⟨fun mark => .code (source mark), fun mark => ?_, fun isWhole plain => ?_,
      fun half => ?_⟩
    · rw [answered, markedCode, written]
    · rw [whole] at isWhole
      rw [run_of_invocation read, ran, if_pos isWhole]
      exact shows_code plain call.verbose _
    · rw [whole] at half
      rw [run_of_invocation read, ran, if_neg (by simp [half])]
      exact ⟨rfl, rfl, rfl, rfl⟩

end Outcomes

section Examples

/-- A workspace with nothing in it. -/
def bareWorkspace : Workspace := ⟨⟨[], []⟩, "/", []⟩

/-- A request with a header that is given twice, and with a credential. -/
def taggedOptions : RequestOptions where
  url := some "https://api.example.com/pets"
  method := "post"
  headers := ["X-Tag: a", "Accept : */*", "X-Tag:b "]
  data := some "\x7b\x7d"
  credentialKind := .basic
  credentialValue := some "me:you"

/-- The request, typed in another way. -/
def taggedWords : List String :=
  ["Python", "--variant=HTTPX", "-HX-Tag: a", "--url", "https://api.example.com/pets", "-Xpost",
    "-H", "Accept : */*", "--header", "X-Tag:b ", "-d", "\x7b\x7d", "--auth-type=basic",
    "--auth-value", "me:you"]

example : typedHeaders taggedOptions.headers = [("X-Tag", "b"), ("Accept", "*/*")] := by
  decide +kernel

theorem read_taggedWords : Command.read bareWorkspace .code taggedWords =
    .ok (.code (some "Python") (some "HTTPX") false taggedOptions) :=
  Chain.ok_of_toOption (by decide +kernel)

/-- The request as it was typed is shown as the page shows it. -/
theorem tagged_shown :
    ∃ reply : Marked Runner.Reply,
      (∀ mark, (Runner.generateCode (.text "Python") (.text "HTTPX")
        ((Request.ofPosted (.object (taggedOptions.posted "https://api.example.com/pets"))).map
          (·.marked mark))
        (Runner.Auth.posted fun _ =>
          [("type", .text "basic"), ("value", .text "me:you")]).credential).result =
            .ok (reply mark)) ∧
      Marked.isWhole reply = true ∧
      (IsPlain (reply Marked.firstMark).text →
        (run bareWorkspace ("code" :: taggedWords)).Shows bareWorkspace
          (reply Marked.firstMark)) := by
  have configured : (Configuration.load bareWorkspace none).result = .ok .usual := rfl
  have direct : taggedOptions.IsDirect "https://api.example.com/pets" :=
    ⟨rfl, rfl, rfl, by decide, by decide⟩
  obtain ⟨reply, answered, shows, -⟩ := run_code_shows (read_code bareWorkspace taggedWords) rfl
    configured (show "Python" ≠ "" by decide) (some "HTTPX") read_taggedWords direct (.given rfl)
  have unmarked := (taggedOptions.request "https://api.example.com/pets").marked_eq_self
    (show ∀ body ∈ some "\x7b\x7d", Body.namesHalf body = false by decide +kernel)
  have whole : Marked.isWhole reply = true := by
    simp only [RequestOptions.ofPosted_posted, Except.map, unmarked] at answered
    have same := (answered Marked.firstMark).symm.trans (answered Marked.secondMark)
    rw [Marked.isWhole, decide_eq_true_eq]
    exact Except.ok.inj same
  exact ⟨reply, answered, whole, shows whole⟩

/-- Words that ask for code whose body is a lone half. -/
def halfWords : List String := ["python", "-XPOST", "--url=/", "-d", "\"\\ud800\""]

/-- The page is answered with code that holds a lone half, and the command that asks for the same
code ends with a fault. -/
theorem half_not_shown :
    let posted : List (String × Value) :=
      [("method", .text "POST"), ("url", .text "/"), ("body", .text "\"\\ud800\"")]
    (∀ mark, ∃ source, (Runner.generateCode (.text "python") .null
      ((Request.ofPosted (.object posted)).map (·.marked mark)) (.ok none)).result =
        .ok (.code source)) ∧
    (run bareWorkspace ("code" :: halfWords)).exitCode = 1 ∧
      (run bareWorkspace ("code" :: halfWords)).fault = some .notEncodable := by
  refine ⟨fun mark => ?_, by decide +kernel, by decide +kernel⟩
  have named : Language.python.id = Text.lower "python" := by decide
  obtain ⟨library, -, found⟩ := Catalog.library_offered (l := .python) rfl none
  have written := Catalog.result_generate_of_library named rfl found
  exact ⟨_, (Runner.result_generateCode "python" none _ none).trans (by rw [written])⟩

end Examples

end CommandLine

end RequestWriter
