import RequestWriter.Parameter
import RequestWriter.Text.Casing

/-!
# Endpoints

One operation of an API: a method on a path, what it takes and what it answers. The schemas stay
values of the document, since they may have any structure and may contain themselves.
-/

namespace RequestWriter

/-- What an endpoint answers under one status. -/
structure Response where
  description : Value
  /-- The schema of the answer, never null. -/
  schema : Option Value
  deriving Repr

structure Endpoint where
  /-- The method in capitals. -/
  method : String
  path : String
  summary : String
  parameters : List Parameter
  /-- The schema of the request body, a mapping. -/
  requestBody : Option Value
  /-- The responses by status. -/
  responses : List (String × Response)
  tags : List String
  contentType : String
  deriving Repr

namespace Endpoint

/-- The fields of an endpoint that the document gives without a check. -/
structure Draft where
  method : String
  path : Scalar
  summary : Value
  parameters : List Parameter
  requestBody : Value
  responses : List (String × Response)
  tags : Value
  contentType : String

def check (g : Graph) (d : Draft) : Checked Endpoint :=
  (fun path summary body tags =>
      { method := d.method, path, summary, parameters := d.parameters,
        requestBody := Option.map Value.mapping body, responses := d.responses, tags,
        contentType := d.contentType })
    <$> Field.text ["path"] (.scalar d.path)
    <*> Field.text ["summary"] d.summary
    <*> Field.mappingOrNull ["request_body"] (d.requestBody.expose g)
    <*> Field.list Field.text ["tags"] (d.tags.expose g)

def ofDraft (g : Graph) (d : Draft) : Except Fault Endpoint :=
  (check g d).toExcept .endpoint

/-- Whether the endpoint answers a verb on a path. -/
def answers (verb path : String) (e : Endpoint) : Bool := e.method == verb && e.path == path

/-- The first endpoint for a method in any case and a path. -/
def find? (endpoints : List Endpoint) (method path : String) : Option Endpoint :=
  endpoints.find? (answers (Text.upper method) path)

/-- The place of the first endpoint for a method and a path that may be anything. The method is only
looked at where there is an endpoint. -/
def placeLoose (endpoints : List Endpoint) (method path : Value) : Except Fault (Option Nat) :=
  if endpoints.isEmpty then .ok none
  else
    match method, path with
    | .scalar (.text m), .scalar (.text p) => .ok (endpoints.findIdx? (answers (Text.upper m) p))
    | .scalar (.text _), _ | .scalar (.bytes _), _ => .ok none
    | _, _ => .error .lacksOperation

end Endpoint

end RequestWriter
