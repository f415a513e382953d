import RequestWriter.Api.Endpoint
import RequestWriter.Value.Access
import RequestWriter.Value.Display

/-!
# Contents of requests and responses

Where a document keeps the schemas of what is sent and answered. The newer form has a content with
one schema for each media type; in the older form the request body is a parameter, and a response
has the schema itself.
-/

namespace RequestWriter.Api

/-- The media type of a body that is not sent as a form. -/
def jsonType : String := "application/json"

/-- The media type of a form with files. -/
def formType : String := "multipart/form-data"

/-- The schema of one media type of a content. -/
def schemaOf (g : Graph) (media : Value) : Except Fault Value := media.lookupD g "schema" Value.null

/-- The schema of the first media type of a content, if there is one. -/
def firstSchema? (g : Graph) (content : Value) : Except Fault (Option Value) := do
  match ← content.entries g with
  | [] => return none
  | (_, media) :: _ => some <$> schemaOf g media

/-- The schema of a content: that of the first of some preferred media types that the content
mentions, or that of its first media type. -/
def contentSchema (g : Graph) (content : Value) : List String → Except Fault Value
  | [] => (fun schema => schema.getD Value.null) <$> firstSchema? g content
  | type :: others => do
    if ← content.mentions g type then
      let media ← content.mentioned g type
      schemaOf g media
    else contentSchema g content others

/-- The schema of the first declaration in the body. -/
def declaredBody (g : Graph) : List Value → Except Fault Value
  | [] => .ok Value.null
  | v :: rest => do
    let location ← v.lookupD g "in" Value.null
    if location.isText "body" then schemaOf g v else declaredBody g rest

/-- The content of a request body that counts as given, or of a response. -/
def contentOf (g : Graph) (body : Value) : Except Fault Value :=
  body.lookupD g "content" (.mapping [])

/-- The schema of the request body of an operation, or null. -/
def requestSchema (g : Graph) (operation : Value) : Except Fault Value := do
  let body ← operation.lookupD g "requestBody" Value.null
  if body.truthy then
    let content ← contentOf g body
    contentSchema g content [jsonType, formType]
  else
    let declared ← operation.lookupD g "parameters" (.list [])
    let declarations ← declared.parts g
    declaredBody g declarations

/-- The media type in which the request body of an operation is sent. -/
def contentType (g : Graph) (operation : Value) : Except Fault String := do
  let body ← operation.lookupD g "requestBody" Value.null
  if body.truthy then
    let content ← contentOf g body
    return if ← content.mentions g formType then formType else jsonType
  else return jsonType

/-- A response. The schema of its content, if it has one with a media type, wins over its own. -/
def response (g : Graph) (v : Value) : Except Fault Response := do
  let description ← v.lookupD g "description" (Value.text "")
  let own ← v.lookupD g "schema" Value.null
  let content ← contentOf g v
  let inContent ← firstSchema? g content
  let schema := inContent.getD own
  return ⟨description, if schema.isNull then none else some schema⟩

/-- The responses of an operation by the display form of their status. -/
def responses (g : Graph) (operation : Value) : Except Fault (List (String × Response)) := do
  let declared ← operation.lookupD g "responses" (.mapping [])
  let statuses ← declared.entries g
  let pairs ← statuses.mapM fun (status, v) => (fun r => (status.display, r)) <$> response g v
  return Entries.ofPairs pairs

end RequestWriter.Api
