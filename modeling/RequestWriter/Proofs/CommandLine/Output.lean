import RequestWriter.Proofs.CommandLine.Code
import RequestWriter.Proofs.CommandLine.Named
import RequestWriter.Proofs.Files.Saving
import RequestWriter.Proofs.Snippet.Agreement

/-!
# A command in a file

The command for a request is shown, or written to a file. Two runs are compared whose words differ
in the file alone: what the one shows is what the other writes, and where the one fails, so does the
other, before anything is written.
-/

namespace RequestWriter.CommandLine

namespace Console

variable {α β γ : Type}

theorem bind_assoc (x : Console α) (f : α → Console β) (g : β → Console γ) :
    x >>= f >>= g = x >>= fun a => f a >>= g := by
  obtain ⟨shown, records, result⟩ := x
  cases result with
  | error cause => rfl
  | ok a =>
    change Console.bind (Console.bind ⟨shown, records, .ok a⟩ f) g =
      Console.bind ⟨shown, records, .ok a⟩ fun a => Console.bind (f a) g
    simp only [Console.bind]
    cases (f a).result <;> simp [List.append_assoc]

/-- Nothing is shown, and a halt is a mistake in the words or a fault that was met. -/
structure IsPreparing (x : Console α) : Prop where
  quiet : x.shown = []
  early : ∀ halt, x.result = .error halt →
    (∃ s text, halt = .misuse s text) ∨ ∃ fault, halt = Halt.ofFault fault

theorem isPreparing_pure (a : α) : (pure a : Console α).IsPreparing := ⟨rfl, nofun⟩

theorem isPreparing_misuse (s : Scope) (text : String) :
    (misuse s text : Console α).IsPreparing :=
  ⟨rfl, fun _ h => .inl ⟨s, text, (Except.error.inj h).symm⟩⟩

theorem isPreparing_ofLogged (x : Logged α) : (ofLogged x).IsPreparing := by
  refine ⟨rfl, fun halt h => .inr ?_⟩
  obtain ⟨records, result⟩ := x
  cases result with
  | ok a => cases h
  | error fault => exact ⟨fault, (Except.error.inj h).symm⟩

theorem IsPreparing.bind {x : Console α} {f : α → Console β} (hx : x.IsPreparing)
    (later : ∀ a, (f a).IsPreparing) : (x >>= f).IsPreparing := by
  obtain ⟨shown, records, result⟩ := x
  obtain ⟨rfl, early⟩ := hx
  cases result with
  | error cause =>
    exact ⟨rfl, fun halt h => early halt (congrArg Except.error (Except.error.inj h))⟩
  | ok a => exact ⟨(later a).quiet, (later a).early⟩

/-- A console behind some records. -/
def behind (records : List LogRecord) (x : Console α) : Console α :=
  ⟨x.shown, records ++ x.records, x.result⟩

theorem bind_of_quiet {x : Console α} {a : α} (quiet : x.shown = []) (h : x.result = .ok a)
    (f : α → Console β) : x >>= f = (f a).behind x.records := by
  obtain ⟨shown, records, result⟩ := x
  cases quiet
  cases h
  rfl

end Console

section Request

variable {s : Scope}

theorem isPreparing_splitPairs (sep : Char) (what : String) (pairs : List String) :
    (splitPairs s sep what pairs).IsPreparing := by
  induction pairs with
  | nil => exact Console.isPreparing_pure _
  | cons pair pairs ih =>
    rw [splitPairs]
    cases Text.cut? sep pair.toList with
    | none => exact Console.isPreparing_misuse _ _
    | some parts => exact ih.bind fun _ => Console.isPreparing_pure _

variable [Yaml.Loader] {ws : Workspace} {c : Configuration} {o : RequestOptions}

theorem isPreparing_documentUrl (document : Path) (method path : String) (values : Url.Values) :
    (documentUrl s ws c document method path values).IsPreparing := by
  refine (Console.isPreparing_ofLogged _).bind fun loaded => ?_
  obtain ⟨doc, endpoints⟩ := loaded
  dsimp only
  cases Endpoint.find? endpoints method path with
  | none => exact Console.isPreparing_misuse _ _
  | some e =>
    exact (Console.isPreparing_ofLogged _).bind fun _ =>
      (Console.isPreparing_ofLogged _).bind fun _ => Console.isPreparing_pure _

theorem isPreparing_requestUrl (values : Url.Values) :
    (requestUrl s ws c o values).IsPreparing := by
  unfold requestUrl
  split
  · split
    · exact Console.isPreparing_misuse _ _
    · exact isPreparing_documentUrl _ _ _ _
  · exact Console.isPreparing_pure _
  · exact Console.isPreparing_misuse _ _

/-- Nothing is shown or written while a request is put together. -/
theorem isPreparing_buildRequest : (buildRequest s ws c o).IsPreparing :=
  (isPreparing_splitPairs _ _ _).bind fun _ => (isPreparing_requestUrl _).bind fun _ =>
    (isPreparing_splitPairs _ _ _).bind fun _ => Console.isPreparing_pure _

end Request

/-- The text of the command for a request, by the mark for its lone halves. -/
def commandText (style : Shell.Style) (r : Request) (headers : Headers) : Marked String :=
  fun mark => Shell.command style (r.marked mark) headers

section Rendered

variable [Yaml.Loader]

/-- The text of the command for the request of some options, and whether it holds no lone half. -/
def rendered (ws : Workspace) (c : Configuration) (style : Shell.Style) (o : RequestOptions) :
    Console (String × Bool) := do
  let (r, headers) ← buildRequest .curl ws c o
  Console.ofMarked fun mark => Shell.format style (r.marked mark) headers

/-- What becomes of the text of a command. -/
def deliver (ws : Workspace) (style : Shell.Style) (output : Option Path)
    (text : String × Bool) : Console Workspace := do
  let (command, whole) := text
  match output with
  | none =>
    if !whole then Console.halt (.defect .notEncodable)
    Console.put command
    return ws
  | some output =>
    let path ← Logged.lift (outputPath style output)
    let ws ← Logged.lift (save ws path (if whole then command ++ "\n" else ""))
    if !whole then Console.halt (.broken .notEncodable ws)
    Console.put ("Saved " ++ style.mimeType ++ " command to " ++ path.text)
    return ws

theorem isPreparing_rendered (ws : Workspace) (c : Configuration) (style : Shell.Style)
    (o : RequestOptions) : (rendered ws c style o).IsPreparing :=
  isPreparing_buildRequest.bind fun _ =>
    (Console.isPreparing_ofLogged _).bind fun _ => Console.isPreparing_pure _

/-- Where a request is put together, its command is rendered. -/
theorem result_rendered (ws : Workspace) (c : Configuration) (style : Shell.Style)
    (o : RequestOptions) : (rendered ws c style o).result =
      (buildRequest .curl ws c o).result.map fun built =>
        (commandText style built.1 built.2 Marked.firstMark,
          Marked.isWhole (commandText style built.1 built.2)) := by
  rw [rendered, Console.result_bind]
  cases (buildRequest .curl ws c o).result with
  | error halt => rfl
  | ok built =>
    obtain ⟨r, headers⟩ := built
    exact Console.result_ofMarked fun mark => Shell.result_format style (r.marked mark) headers

theorem runCurl_eq (ws : Workspace) (c : Configuration) (style : Option Shell.Style)
    (output : Option Path) (o : RequestOptions) : runCurl ws c style output o =
      rendered ws c (style.getD c.shellStyle) o >>=
        deliver ws (style.getD c.shellStyle) output := by
  rw [rendered, Console.bind_assoc]
  rfl

end Rendered

section Saving

variable {ws : Workspace} {style : Shell.Style} {p path : Path} {command : String}

/-- The suffix of a file with a command. -/
def extension (style : Shell.Style) : String := if style = .powershell then ".ps1" else ".sh"

/-- The file for a path that was asked for: the path itself if it has a suffix, and else the path
with that of the style behind its name. -/
inductive IsTarget (style : Shell.Style) (p : Path) : Path → Prop
  | own (h : p.suffix ≠ "") : IsTarget style p p
  | extended (h : p.suffix = "") (named : p.parts ≠ []) :
      IsTarget style p { p with parts := p.parts.dropLast ++ [p.name ++ extension style] }

theorem IsTarget.outputPath_eq (h : IsTarget style p path) : outputPath style p = .ok path := by
  cases h with
  | own h => rw [outputPath, if_neg h]
  | extended h named =>
    have same : style.suffix = extension style := by cases style <;> rfl
    rw [outputPath, if_pos h, Path.addSuffix?, if_neg (by simpa using named), same]

/-- Where a file can be written, a command is, or nothing if it holds a lone half. -/
theorem exists_save (target : IsTarget style p path) (writable : ws.CanWrite path)
    (content : String) : outputPath style p = .ok path ∧ ∃ after, save ws path content = .ok after ∧
      ws.Saved path (Text.utf8Bytes content.toList) after := by
  obtain ⟨after, saved⟩ := Workspace.exists_saved writable content
  exact ⟨target.outputPath_eq, after, saved, (Workspace.saved_of_eq_ok saved).2⟩

theorem deliver_emptied (target : IsTarget style p path) (writable : ws.CanWrite path)
    (command : String) : ∃ after,
      deliver ws style (some p) (command, false) = ⟨[], [], .error (.broken .notEncodable after)⟩ ∧
        ws.Saved path [] after := by
  obtain ⟨found, after, saves, saved⟩ := exists_save target writable ""
  refine ⟨after, ?_, saved⟩
  rw [deliver, found]
  change ((Logged.lift (save ws path "") : Console Workspace) >>= _) = _
  rw [saves]
  rfl

end Saving

section Runs

/-- The words ask for the command of a request in a style, and the request can be put together. -/
inductive Builds [Yaml.Loader] [Toolkit] (ws : Workspace) (args : List String) :
    Shell.Style → Request → Headers → Prop
  | mk {call : Invocation} {c : Configuration} {style : Option Shell.Style} {o : RequestOptions}
      {r : Request} {headers : Headers} (read : Toolkit.read ws args = .ok call)
      (configured : (Configuration.load ws call.configuration).result = .ok c)
      (asked : call.command = .ok (.curl style none o))
      (built : (buildRequest .curl ws c o).result = .ok (r, headers)) :
      Builds ws args (style.getD c.shellStyle) r headers

section Halts

variable [Yaml.Loader] [Python.Parser] {ws : Workspace} {call : Invocation} {c : Configuration}

/-- Where the request is put together, what is rendered is delivered. -/
theorem run_curl_of_ok {style : Option Shell.Style} {o : RequestOptions} {r : Request}
    {headers : Headers} (built : (buildRequest .curl ws c o).result = .ok (r, headers)) :
    ∃ records, ∀ output, (Command.curl style output o).run ws c =
      let text := commandText (style.getD c.shellStyle) r headers
      (deliver ws (style.getD c.shellStyle) output
        (text Marked.firstMark, Marked.isWhole text)).behind records := by
  have result := result_rendered ws c (style.getD c.shellStyle) o
  rw [built] at result
  exact ⟨_, fun output => (runCurl_eq ws c style output o).trans
    (Console.bind_of_quiet (isPreparing_rendered ws c _ o).quiet result _)⟩

end Halts

variable [Toolkit]

variable [Yaml.Loader] {ws : Workspace} {args args' : List String} {p : Path}

/-- What becomes of the text of a command at the end of a run. -/
def delivered (ws : Workspace) (verbose : Bool) (records : List LogRecord) (style : Shell.Style)
    (text : Marked String) (output : Option Path) : Outcome :=
  outcome ws verbose ((deliver ws style output
    (text Marked.firstMark, Marked.isWhole text)).behind records)

variable [Python.Parser]

/-- Two runs whose words differ in the file alone deliver the same text, once the request is put
together. -/
theorem run_of_builds (named : NamesFile ws args args' p) {style : Shell.Style} {r : Request}
    {headers : Headers} (h : Builds ws args style r headers) :
    ∃ verbose records,
      run ws args = delivered ws verbose records style (commandText style r headers) none ∧
      run ws args' = delivered ws verbose records style (commandText style r headers) (some p) := by
  obtain @⟨call, c, style, o, _, _, read, configured, asked, built⟩ := h
  have read' : Toolkit.read ws args' = .ok (call.withOutput p) := by
    rw [named.read, read]
    rfl
  have asked' : (call.withOutput p).command = .ok (.curl style (some p) o) := by
    rw [Invocation.withOutput, asked]
    rfl
  obtain ⟨records, runs⟩ := @run_curl_of_ok _ _ ws c style o _ _ built
  have shown := run_of_read configured asked
  have written := @run_of_read ws _ _ (call.withOutput p) c _ configured asked'
  rw [runs] at shown written
  refine ⟨call.verbose, (Configuration.load ws call.configuration).records ++ records, ?_, ?_⟩
  · rw [run_of_invocation read, shown, delivered]
    simp [Console.behind]
  · rw [run_of_invocation read', written, delivered]
    simp [Console.behind, Invocation.withOutput]

variable [Toolkit.IsUsual]

omit [Toolkit.IsUsual] in
/-- A command with a lone half is neither shown nor written, but the file for it is there, and it is
empty. -/
theorem run_curl_half (named : NamesFile ws args args' p) {style : Shell.Style} {r : Request}
    {headers : Headers} (h : Builds ws args style r headers)
    (half : Marked.isWhole (commandText style r headers) = false) :
    let shown := run ws args
    let written := run ws args'
    shown.exitCode = 1 ∧ shown.out = "" ∧ shown.fault = some .notEncodable ∧
      shown.workspace = ws ∧ ∀ path, IsTarget style p path → ws.CanWrite path →
        written.exitCode = 1 ∧ written.fault = some .notEncodable ∧
          ws.Saved path [] written.workspace := by
  obtain ⟨verbose, records, shown, written⟩ := run_of_builds named h
  rw [shown, written]
  simp only [delivered, half]
  refine ⟨rfl, rfl, rfl, rfl, fun path target writable => ?_⟩
  obtain ⟨after, empties, saved⟩ := deliver_emptied target writable
    (commandText style r headers Marked.firstMark)
  rw [empties]
  exact ⟨rfl, rfl, saved⟩

end Runs

section Examples

end Examples

end RequestWriter.CommandLine
