import RequestWriter.Request
import RequestWriter.Headers
import RequestWriter.Body
import RequestWriter.Literal.Render

/-!
# Payloads and header blocks

The two parts that all code snippets share: the body as a literal of the language, and the headers
as a block of one entry per line.
-/

namespace RequestWriter

/-- What a snippet shows of the body that is sent. -/
inductive Payload where
  /-- The value of a JSON text. -/
  | structured (value : Value)
  /-- Any other text. -/
  | raw (text : String)
  deriving Repr

namespace Payload

def ofBody (body : String) : Payload :=
  match Body.value? body with
  | some v => .structured v
  | none => .raw body

/-- The payload of a request, if it sends a body. -/
def ofRequest? (r : Request) : Option Payload := r.sentBody?.map ofBody

/-- The levels of nesting that a literal has at most. -/
def levels : Nat := Literal.levelsLeft 0 Literal.defaultMaxDepth

def literal (d : Dialect) : Payload → String
  | .structured v => Literal.render d [] levels 0 v
  | .raw s => d.quote s

/-- What writing the payload leaves in the log. -/
def literalSteps : Payload → List Step
  | .structured v => Literal.steps [] Literal.defaultMaxDepth levels v
  | .raw _ => []

/-- What showing the body of a request leaves in the log. -/
def steps (r : Request) : List Step :=
  match r.sentBody? with
  | none => []
  | some body => Body.steps body ++ (ofBody body).literalSteps

end Payload

/-- The headers as a mapping of literals, each entry behind `indent`, the closing bracket behind
`closing`. -/
def Headers.block (d : Dialect) (indent closing : String) (headers : Headers) : String :=
  if headers.isEmpty then "\x7b\x7d"
  else
    let entries := headers.map fun (name, value) =>
      indent ++ d.quote name ++ d.keySeparator ++ d.quote value
    "\x7b\n" ++ Text.join ",\n" entries ++ "\n" ++ closing ++ "\x7d"

/-- Lines as one text, without a newline at the end. -/
def ofLines (lines : List String) : String := Text.join "\n" lines

/-- The verbs for which client libraries have names of their own. -/
def standardVerbs : List String := ["GET", "POST", "PUT", "PATCH", "DELETE", "HEAD", "OPTIONS"]

/-- Whether client libraries have a name for the verb of a request. -/
def Request.isStandard (r : Request) : Bool := standardVerbs.contains r.verb

end RequestWriter
