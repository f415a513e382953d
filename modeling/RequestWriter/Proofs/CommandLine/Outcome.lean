import RequestWriter.CommandLine.Outcome
import RequestWriter.CommandLine.Reading
import RequestWriter.Proofs.Chain
import RequestWriter.Proofs.Text.Search
import RequestWriter.Runner

/-!
# What is seen of a run

The streams of a run in terms of what its command shows, for every library that reads command lines
and ends failing runs as usual. A text without terminal codes and carriage returns is shown as it
is. Reading a configuration leaves nothing that is shown unless it is asked for.
-/

namespace RequestWriter

/-- The text that a page is answered with. -/
def Runner.Reply.text : Reply → String
  | .code source => source
  | .error message => message

namespace CommandLine

variable {ws : Workspace}

theorem dropCodesFrom_of_notMem {cs : List Char} (h : '\x1b' ∉ cs) : dropCodesFrom 0 cs = cs := by
  induction cs with
  | nil => rfl
  | cons c cs ih =>
    obtain ⟨other, others⟩ := not_or.mp (mt List.mem_cons.mpr h)
    rw [dropCodesFrom, if_neg (Ne.symm other)]
    dsimp only
    rw [ih others]

/-- The text holds nothing that a terminal takes for a code, and no carriage return. -/
def IsPlain (s : String) : Prop := '\x1b' ∉ s.toList ∧ '\r' ∉ s.toList

instance (s : String) : Decidable (IsPlain s) := inferInstanceAs (Decidable (_ ∧ _))

theorem IsPlain.append {s t : String} (hs : IsPlain s) (ht : IsPlain t) : IsPlain (s ++ t) := by
  simp only [IsPlain, String.toList_append, List.mem_append, not_or]
  exact ⟨⟨hs.1, ht.1⟩, hs.2, ht.2⟩

theorem IsPlain.dropCodes {s : String} (h : IsPlain s) : dropCodes s = s := by
  rw [CommandLine.dropCodes, dropCodesFrom_of_notMem h.1, String.ofList_toList]

theorem IsPlain.plainNewlines {s : String} (h : IsPlain s) : plainNewlines s = s := by
  rw [CommandLine.plainNewlines, Text.replace]
  exact (congrArg String.ofList (Text.replaceFrom_of_notMem h.2 ['\n'] ['\n'])).trans
    String.ofList_toList

/-- What is known of a library for command lines: how it shows a text, and how it ends a run that
fails. -/
class Toolkit.IsUsual [Toolkit] : Prop where
  echo_eq {text : String} (plain : IsPlain text) : Toolkit.echo text = text ++ "\n"
  failure_eq {message : String} (plain : IsPlain message) :
    Toolkit.failure message = { exitCode := 1, err := "Error: " ++ message ++ "\n" }
  exitCode_failure (message : String) : (Toolkit.failure message).exitCode = 1
  exitCode_misuse (s : Scope) (text : String) : (Toolkit.misuse s text).exitCode = 2

theorem IsPlain.shownText {s : String} (h : IsPlain s) : shownText s = s ++ "\n" := by
  have line : IsPlain (s ++ "\n") := h.append (by decide)
  rw [CommandLine.shownText, h.dropCodes, line.plainNewlines]

/-- The toolkit with which the program is built is a usual one. -/
instance : Toolkit.IsUsual where
  echo_eq plain := plain.shownText
  failure_eq {message} plain := by
    have whole : IsPlain ("Error: " ++ message) := IsPlain.append (by decide) plain
    exact congrArg (fun err => ({ exitCode := 1, err := err } : Stop)) whole.shownText
  exitCode_failure _ := rfl
  exitCode_misuse _ _ := rfl

/-- What the surroundings see of a run shows the answer of a page: the code on the one stream, or
the message on the other. -/
def Outcome.Shows (seen : Outcome) (ws : Workspace) : Runner.Reply → Prop
  | .code source => seen.exitCode = 0 ∧ seen.out = source ++ "\n" ∧ seen.fault = none ∧
      seen.workspace = ws
  | .error message => seen.exitCode = 1 ∧ seen.out = "" ∧
      seen.err = "Error: " ++ message ++ "\n" ∧ seen.fault = none ∧ seen.workspace = ws

/-- Values that may hold lone halves are looked at with either mark. -/
theorem Console.result_ofMarked {α : Type} [DecidableEq α] {x : Marked (Logged α)}
    {value : Marked α} (h : ∀ mark, (x mark).result = .ok (value mark)) :
    (ofMarked x).result = .ok (value Marked.firstMark, Marked.isWhole value) := by
  have whole : (Marked.isWhole fun mark => (x mark).result.toOption) = Marked.isWhole value := by
    simp [Marked.isWhole, h, Except.toOption]
  rw [ofMarked, whole, result_bind]
  change ((x Marked.firstMark).result.mapError Halt.ofFault >>= _) = _
  rw [h]
  rfl

section Configurations

variable [Yaml.Loader]

/-- A configuration is read without a warning. -/
theorem records_load (ws : Workspace) (explicit : Option Path) :
    ∀ r ∈ (Configuration.load ws explicit).records, r.level = .debug := by
  have note : ∀ source, ∀ r ∈ (Configuration.entries ws (some source)).records,
      r.level = .debug := by
    intro source
    rw [Configuration.entries]
    cases Configuration.entriesOfFile ws source with
    | error fault => exact List.forall_mem_nil _
    | ok found => exact List.forall_mem_singleton.mpr rfl
  rw [Configuration.load, Logged.records_bind_liftM]
  cases Configuration.source? ws explicit with
  | none => exact List.forall_mem_nil _
  | some source => exact note source

/-- A command runs once the configuration is loaded and its words are understood. -/
theorem run_of_read [Python.Parser] {call : Invocation} {c : Configuration} {command : Command}
    (configured : (Configuration.load ws call.configuration).result = .ok c)
    (asked : call.command = .ok command) : call.run ws =
      ⟨(command.run ws c).shown,
        (Configuration.load ws call.configuration).records ++ (command.run ws c).records,
        (command.run ws c).result⟩ := by
  rw [Invocation.run, asked]
  generalize Configuration.load ws call.configuration = loaded at configured ⊢
  obtain ⟨records, result⟩ := loaded
  cases configured
  rfl

end Configurations

section Streams

variable [Toolkit]

theorem run_of_invocation [Yaml.Loader] [Python.Parser] {args : List String} {call : Invocation}
    (read : Toolkit.read ws args = .ok call) :
    run ws args = outcome ws call.verbose (call.run ws) := by
  rw [run, read]

variable [Toolkit.IsUsual]

/-- A text that is shown stands on the first stream, with a newline behind it. -/
theorem out_of_plain {source : String} (plain : IsPlain source) (verbose : Bool)
    (records : List LogRecord) (after : Workspace) :
    (outcome ws verbose ⟨[source], records, .ok after⟩).out = source ++ "\n" := by
  change String.join [Toolkit.echo source] = _
  rw [Toolkit.IsUsual.echo_eq plain, String.join, List.foldl_cons, List.foldl_nil,
    String.empty_append]

/-- A code that is shown stands on the first stream. -/
theorem shows_code {source : String} (plain : IsPlain source) (verbose : Bool)
    (records : List LogRecord) :
    (outcome ws verbose ⟨[source], records, .ok ws⟩).Shows ws (.code source) :=
  ⟨rfl, out_of_plain plain verbose records ws, rfl, rfl⟩

/-- A message about a failure stands on the second stream, and nothing else if no record is
shown. -/
theorem shows_error {message : String} (plain : IsPlain message) {records : List LogRecord}
    (quiet : ∀ r ∈ records, r.level = .debug) :
    (outcome ws false ⟨[], records, .error (.failure message)⟩).Shows ws (.error message) := by
  have hidden : records.filter (isShown false) = [] := by
    refine List.filter_eq_nil_iff.mpr fun r mem => ?_
    rw [isShown, quiet r mem]
    decide
  have ends := Toolkit.IsUsual.failure_eq plain
  simp [outcome, Halt.stop, ends, hidden, Outcome.Shows, Halt.fault?, Halt.left?, String.join]

end Streams

end CommandLine

end RequestWriter
