import RequestWriter.Checked
import RequestWriter.Text.Casing

/-!
# Requests

One HTTP request as a user describes it. The method is kept as it was given; its upper case form is
the verb that is sent. A body goes out only with the verbs that change something.
-/

namespace RequestWriter

structure Request where
  method : String
  url : String
  /-- The headers of the request itself, in order. -/
  headers : List (String × String)
  body : Option String
  deriving DecidableEq, Repr

namespace Request

def verb (r : Request) : String := Text.upper r.method

/-- The verbs that carry a body. -/
def mutatingVerbs : List String := ["POST", "PUT", "PATCH"]

/-- The body that is sent: none when the verb carries none or the body is absent or empty. -/
def sentBody? (r : Request) : Option String :=
  if mutatingVerbs.contains r.verb then r.body.filter (· != "") else none

def carriesBody (r : Request) : Bool := r.sentBody?.isSome

def check (data : List (Scalar × Value)) : Checked Request :=
  Request.mk <$> Field.optional "method" "GET" Field.text data
    <*> Field.required "url" Field.text data
    <*> Field.optional "headers" [] Field.textMapping data
    <*> Field.optional "body" none Field.textOrNull data

def ofFields (data : List (Scalar × Value)) : Except Fault Request :=
  (check data).toExcept .request

def ofValue (v : Value) : Except Fault Request := Field.ofMapping v >>= ofFields

/-- The request that a page posts: fields that are null count as left out. -/
def ofPosted : Value → Except Fault Request
  | .mapping entries => ofValue (.mapping (entries.filter fun (_, v) => !v.isNull))
  | _ => .error .lacksOperation

end Request

end RequestWriter
