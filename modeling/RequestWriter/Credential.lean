import RequestWriter.Checked
import RequestWriter.Text.Base64
import RequestWriter.Text.Marked

/-!
# Credentials

A credential and the header that it becomes. A basic credential is user and password with a colon
between them; the header holds its bytes in base 64. A token is sent as it is.
-/

namespace RequestWriter

inductive CredentialKind where
  | bearer
  | apiKey
  | basic
  | oauth2
  deriving DecidableEq, Repr

namespace CredentialKind

def name : CredentialKind → String
  | .bearer => "bearer"
  | .apiKey => "api_key"
  | .basic => "basic"
  | .oauth2 => "oauth2"

/-- All kinds, in the order in which they are offered. -/
def all : List CredentialKind := [.bearer, .apiKey, .basic, .oauth2]

def ofName? (s : String) : Option CredentialKind := all.find? fun k => k.name == s

end CredentialKind

structure Credential where
  kind : CredentialKind
  value : String
  deriving DecidableEq, Repr

namespace Credential

/-- A text as the base 64 form of its bytes. -/
def encoded (s : String) : String := String.ofList (Text.base64 (Text.utf8Bytes s.toList))

/-- Name and value of the header of a credential. -/
def header (c : Credential) : String × String :=
  match c.kind with
  | .apiKey => ("X-API-Key", c.value)
  | .basic => ("Authorization", "Basic " ++ encoded c.value)
  | .bearer | .oauth2 => ("Authorization", "Bearer " ++ c.value)

def check (data : List (Scalar × Value)) : Checked Credential :=
  Credential.mk <$> Field.required "type" (Field.choice CredentialKind.ofName?) data
    <*> Field.optional "value" "" Field.text data

def ofValue (v : Value) : Except Fault Credential := do
  let data ← Field.ofMapping v
  (check data).toExcept .credential

/-- The credential that a page posts, or null for none. -/
def ofPosted : Value → Except Fault (Option Credential)
  | .scalar .null => .ok none
  | .mapping entries => some <$> ofValue (.mapping entries)
  | _ => .error .lacksOperation

/-- A credential that may hold lone halves, if its header can be written. The value of a basic
credential is encoded for it, so it must hold none. -/
def encodable (given : Marked (Option Credential)) : Except Fault (Option Credential) :=
  if (given Marked.firstMark).any (·.kind = .basic) && !Marked.isWhole given then
    .error .notEncodable
  else .ok (given Marked.firstMark)

/-- The credential that a page posts with data that may hold lone halves. -/
def ofMarked (posted : Marked Value) : Except Fault (Option Credential) := do
  let _ ← ofPosted (posted Marked.firstMark)
  encodable fun mark => (ofPosted (posted mark)).toOption.join

end Credential

end RequestWriter
