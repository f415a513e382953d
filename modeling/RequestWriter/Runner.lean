import RequestWriter.Catalog

/-!
# Code for the documentation page

The page posts a request and a credential as loose data and asks for code. Foreseen faults and
records that are not well formed become an error text on the page; everything else is a defect of
the page and stays a fault.
-/

namespace RequestWriter.Runner

inductive Reply where
  | code (source : String)
  | error (message : String)
  deriving DecidableEq, Repr

/-- The text about a record that is not well formed. -/
def invalidMessage (issues : List Issue) : String :=
  s!"Invalid request data: {issues.length} error(s)"

/-- The record of a request that is not well formed. -/
def rejection (issues : List Issue) : LogRecord :=
  ⟨.debug, "request_snippets.api", s!"Rejected request data: {issues.length} validation errors"⟩

/-- The reply for a fault, if the page shows it. -/
def replyToFault (fault : Fault) : Logged Reply :=
  match fault with
  | .invalid _ issues => do
    Logged.note (rejection issues)
    return .error (invalidMessage issues)
  | _ =>
    match fault.message? with
    | some message => pure (.error message)
    | none => Logged.fail fault

def reply (outcome : Logged Snippet) : Logged Reply :=
  match outcome.result with
  | .ok snippet => ⟨outcome.records, .ok (.code snippet.source)⟩
  | .error fault =>
    let answer := replyToFault fault
    ⟨outcome.records ++ answer.records, answer.result⟩

/-- Code for a request that is read first, with a credential that is read second. -/
def generateCode (language variant : Value) (request : Except Fault Request)
    (credential : Except Fault (Option Credential)) : Logged Reply :=
  reply do
    let r ← request
    let credential ← credential
    let (l, chosen, emitter) ← Catalog.resolveLoose language variant
    let library ← emitter.library (.text chosen)
    let source ← library.emit r (Headers.prepare r.headers credential)
    return ⟨l.id, chosen, source⟩

end RequestWriter.Runner
