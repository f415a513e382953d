import RequestWriter.Parameter
import RequestWriter.Value.Access

/-!
# Declarations of parameters

A path declares parameters that all its operations share, and an operation declares its own. The
shared ones come first; of several declarations with one name and location the last one counts, at
the place of the first. A declaration without a name declares nothing, and one in the body belongs
to the request body.
-/

namespace RequestWriter.Api

/-- Name and location, by which declarations are told apart. -/
abbrev DeclarationKey := Scalar × Scalar

abbrev Declaration := List (Scalar × Value)

/-- A value that is taken for a key. -/
def asKey (g : Graph) (v : Value) : Except Fault Scalar :=
  match v.expose g with
  | .scalar s => .ok s
  | _ => .error .wrongKind

/-- The location of a declaration that gives none. -/
def defaultLocation : Value := Value.text "query"

/-- The key of a declaration and the declaration, unless it lacks a name. -/
def declaration? (g : Graph) (v : Value) :
    Except Fault (Option (DeclarationKey × Declaration)) := do
  if ← v.mentions g "name" then
    let name ← v.mentioned g "name"
    let fields ← v.entries g
    let location := (Entries.get? (.text "in") fields).getD defaultLocation
    let name ← asKey g name
    let location ← asKey g location
    return some ((name, location), fields)
  else return none

/-- One declaration for each key, the last one at the place of the first. -/
def merge (declared : List (DeclarationKey × Declaration)) :
    List (DeclarationKey × Declaration) := Entries.ofPairs declared

/-- Whether a declaration belongs to the request body. -/
def inBody (key : DeclarationKey) : Bool := key.2 == .text "body"

/-- The type that a declaration gives: that of its schema, or its own. -/
def declaredType (g : Graph) (fields : Declaration) : Except Fault Value := do
  let schema := (Entries.get? (.text "schema") fields).getD (.mapping [])
  let own := (Entries.get? (.text "type") fields).getD (Value.text "string")
  schema.lookupD g "type" own

/-- The parameter of a declaration. One in the path is required unless it says otherwise. -/
def parameter (g : Graph) (declared : DeclarationKey × Declaration) : Except Fault Parameter := do
  let ((name, location), fields) := declared
  let type ← declaredType g fields
  let get (key : String) (default : Value) := (Entries.get? (.text key) fields).getD default
  Parameter.ofFields [
    (.text "name", .scalar name),
    (.text "location", .scalar location),
    (.text "required", get "required" (Value.bool (location == .text "path"))),
    (.text "param_type", type),
    (.text "description", get "description" (Value.text ""))]

def parametersOf (g : Graph) (items : List Value) : Except Fault (List Parameter) := do
  let declared ← items.mapM (declaration? g)
  ((merge (declared.filterMap id)).filter fun d => !inBody d.1).mapM (parameter g)

end RequestWriter.Api
