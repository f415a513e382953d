import RequestWriter.Api.Declarations
import RequestWriter.Api.Content
import RequestWriter.Log

/-!
# Operations of a document

The endpoints that an API document describes: every key of a path that is one of five methods, in
any case, is an operation. The order is that of the document.
-/

namespace RequestWriter.Api

/-- The methods that make a key of a path an operation. -/
def methods : List String := ["GET", "POST", "PUT", "DELETE", "PATCH"]

/-- The method that a key of a path names, if it names one. Bytes name none, and any other key that
is no text has no letter case. -/
def methodOf? (key : Scalar) : Except Fault (Option String) :=
  match key with
  | .text s => .ok (if methods.contains (Text.upper s) then some (Text.upper s) else none)
  | .bytes _ => .ok none
  | _ => .error .lacksOperation

/-- The endpoint of an operation on a path with shared declarations. -/
def endpoint (g : Graph) (path : Scalar) (shared : Value) (method : String) (operation : Value) :
    Except Fault Endpoint := do
  let own ← operation.lookupD g "parameters" (.list [])
  let declarations ← shared.partsOfBoth g own
  let parameters ← parametersOf g declarations
  let requestBody ← requestSchema g operation
  let contentType ← contentType g operation
  let summary ← operation.lookupD g "summary" (Value.text "")
  let responses ← responses g operation
  let tags ← operation.lookupD g "tags" (.list [])
  Endpoint.ofDraft g
    { method, path, summary, parameters, requestBody, responses, tags, contentType }

/-- The endpoint of a key of a path, if the key is a method. -/
def endpoint? (g : Graph) (path : Scalar) (shared : Value) (entry : Scalar × Value) :
    Except Fault (Option Endpoint) := do
  match ← methodOf? entry.1 with
  | some method => some <$> endpoint g path shared method entry.2
  | none => return none

def endpointsOfPath (g : Graph) (path : Scalar × Value) : Except Fault (List Endpoint) := do
  let shared ← path.2.lookupD g "parameters" (.list [])
  let entries ← path.2.entries g
  let found ← entries.mapM (endpoint? g path.1 shared)
  return found.filterMap id

/-- The endpoints of the paths of a document, which may be left out. -/
def endpointsOfPaths (g : Graph) (paths : Value) : Except Fault (List Endpoint) :=
  if paths.truthy then do
    let entries ← paths.entries g
    List.flatten <$> entries.mapM (endpointsOfPath g)
  else .ok []

/-- The record of a document that was read. -/
def readingRecord (count : Nat) : LogRecord :=
  ⟨.debug, "request_snippets.parser.openapi", s!"Parsed {count} endpoints"⟩

def endpoints (doc : Document) : Logged (List Endpoint) := do
  let paths ← doc.root.lookupD doc.graph "paths" Value.null
  let found ← endpointsOfPaths doc.graph paths
  Logged.note (readingRecord found.length)
  return found

end RequestWriter.Api
