import RequestWriter.Files.Workspace
import RequestWriter.Yaml.Loader
import RequestWriter.Api.Operations
import RequestWriter.Api.Servers

/-!
# Reading a document from a file

An API document is a mapping that says which version of the description format it is written in.
-/

namespace RequestWriter

namespace Api

def isApi (v : Value) : Bool := (v.get? "openapi").isSome || (v.get? "swagger").isSome

section Loading

variable [Yaml.Loader]

/-- The document in a text, read from a path. -/
def ofText (path : String) (text : String) : Except Fault Document :=
  match Yaml.Loader.load text with
  | .error refusal => .error (refusal.fault (.document (.unparsable path)))
  | .ok doc => if isApi doc.root then .ok doc else .error (.document (.notApi path))

def load (ws : Workspace) (path : Path) : Except Fault Document := do
  let text ← ws.readText (ws.start path) path.parts fun reason =>
    .document (.unreadable path.text reason)
  ofText path.text text

/-- The endpoints of the document in a file, with the document. -/
def loadEndpoints (ws : Workspace) (path : Path) : Logged (Document × List Endpoint) := do
  let doc ← load ws path
  let found ← endpoints doc
  return (doc, found)

end Loading

end Api

end RequestWriter
