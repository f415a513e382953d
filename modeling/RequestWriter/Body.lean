import RequestWriter.Json.Halves
import RequestWriter.Json.Printer
import RequestWriter.Log
import RequestWriter.Request
import RequestWriter.Text.Marked

/-!
# Bodies

A body that is a JSON text is shown by its value: as a literal in source code, and in its compact
form on a command line. Any other body is opaque and is shown as the text that it is. A body that
names lone halves is a JSON text only with a mark in their place.
-/

namespace RequestWriter.Body

/-- The value of a body, if it is a JSON text. -/
def value? (body : String) : Option Value := Json.read? body

/-- Whether a body is a JSON text only if a lone half counts as a character. -/
def namesHalf (body : String) : Bool :=
  (value? body).isNone && (value? (Json.markHalves body Marked.firstMark)).isSome

/-- A body by the mark for its lone halves. -/
def marked (body : String) : Marked String := fun mark =>
  if namesHalf body then Json.markHalves body mark else body

/-- The body as it is sent on a command line. -/
def compact (body : String) : String :=
  match value? body with
  | some v => Json.compact v
  | none => body

/-- The record of a body that is no JSON text. -/
def opaqueRecord : LogRecord :=
  ⟨.debug, "request_snippets.render.literal",
    "Body is not valid JSON, rendering it as a string"⟩

/-- What reading a body leaves in the log. -/
def steps (body : String) : List Step :=
  if (value? body).isSome then [] else [.record opaqueRecord]

def load (body : Option String) : Logged (Option Value) :=
  match body with
  | none => pure none
  | some body => Step.play (value? body) (steps body)

end RequestWriter.Body

namespace RequestWriter

/-- A request by the mark for the lone halves that its body names. -/
def Request.marked (r : Request) : Marked Request := fun mark =>
  { r with body := r.body.map fun body => Body.marked body mark }

/-- A body that names no lone half leaves a request as it is. -/
theorem Request.marked_eq_self (r : Request) (whole : ∀ body ∈ r.body, Body.namesHalf body = false)
    (mark : Char) : r.marked mark = r := by
  obtain ⟨method, url, headers, body⟩ := r
  cases body with
  | none => rfl
  | some body => simp [Request.marked, Body.marked, whole body rfl]

end RequestWriter
