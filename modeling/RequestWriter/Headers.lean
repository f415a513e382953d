import RequestWriter.Credential
import RequestWriter.Entries

/-!
# Headers

The headers that are sent. A content type stands first unless the caller set one under exactly that
name, and the header of a credential replaces one of the same name in place.

Headers from a page may hold values that are no text. They are kept as they are until they are
written, so the same rules are also given for mappings of any content.
-/

namespace RequestWriter

abbrev Headers := List (String × String)

namespace Headers

/-- The content type of a request that names none. -/
def defaultContentType : String × String := ("Content-Type", "application/json")

/-- The headers behind a default content type. Only the exact name overrides it. -/
def withDefaultContentType (headers : Headers) : Headers :=
  Entries.overlay [defaultContentType] headers

/-- The headers with the header of a credential, unless its value is empty. -/
def inject (headers : Headers) (credential : Option Credential) : Headers :=
  match credential with
  | none => headers
  | some c => if c.value = "" then headers else Entries.put c.header.1 c.header.2 headers

/-- The headers that are sent: the default content type first, then the credential. -/
def prepare (headers : Headers) (credential : Option Credential) : Headers :=
  inject (withDefaultContentType headers) credential

end Headers

/-- Headers as they come from a page. -/
abbrev LooseHeaders := List (Scalar × Value)

namespace LooseHeaders

/-- A key that can be looked up: a scalar. -/
def key : Value → Except Fault Scalar
  | .scalar s => .ok s
  | _ => .error .wrongKind

/-- An item of a list of pairs: anything that has exactly two parts. -/
def pair : Value → Except Fault (Scalar × Value)
  | .list [k, v] => (·, v) <$> key k
  | .mapping [(k, _), (v, _)] => .ok (k, .scalar v)
  | .scalar (.text s) =>
    match s.toList with
    | [k, v] => .ok (.text (String.ofList [k]), Value.text (String.ofList [v]))
    | _ => .error .badValue
  | .scalar (.bytes [k, v]) => .ok (.int k.toNat, Value.int v.toNat)
  | .list _ | .mapping _ | .scalar (.bytes _) => .error .badValue
  | _ => .error .wrongKind

/-- The mapping that a list of pairs spells. -/
def ofPairs (items : List Value) : Except Fault LooseHeaders := do
  let pairs ← items.mapM pair
  return Entries.ofPairs pairs

/-- A copy of the headers of a page. Anything that counts as not given is no header at all; a list
may spell the headers by pairs. -/
def copy (v : Value) : Except Fault LooseHeaders :=
  if v.truthy then
    match v with
    | .mapping entries => .ok entries
    | .list items => ofPairs items
    | .scalar (.text _) => .error .badValue
    | _ => .error .wrongKind
  else .ok []

/-- The headers of a page behind a default content type. Here only a mapping will do. -/
def withDefaultContentType (v : Value) : Except Fault LooseHeaders :=
  let first := (Scalar.text Headers.defaultContentType.1,
    Value.text Headers.defaultContentType.2)
  if v.truthy then
    match v with
    | .mapping entries => .ok (Entries.overlay [first] entries)
    | _ => .error .wrongKind
  else .ok [first]

/-- The headers of a page with the header of a credential. -/
def inject (headers : Value) (credential : Except Fault (Option Credential)) :
    Except Fault LooseHeaders := do
  let entries ← copy headers
  match ← credential with
  | none => return entries
  | some c =>
    if c.value = "" then return entries
    else return Entries.put (.text c.header.1) (Value.text c.header.2) entries

/-- The headers that are sent for a page. -/
def prepare (headers : Value) (credential : Except Fault (Option Credential)) :
    Except Fault LooseHeaders := do
  let entries ← withDefaultContentType headers
  inject (.mapping entries) credential

/-- The text form of the headers of a page. Only a mapping has entries. -/
def toHeaders : Value → Except Fault Headers
  | .mapping entries => .ok (entries.map fun (k, v) => (k.display, v.display))
  | _ => .error .lacksOperation

/-- The text form of headers that are looked at only if they count as given. -/
def toHeadersIfGiven (v : Value) : Except Fault Headers :=
  if v.truthy then toHeaders v else .ok []

end LooseHeaders

end RequestWriter
