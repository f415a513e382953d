import RequestWriter.Entries
import RequestWriter.Calendar
import RequestWriter.Double

/-!
# Values of documents and bodies

The data that a request body, a configuration or an API document holds. Scalars stand apart from
containers because only a scalar may be the key of a mapping.

A document may hold a container that contains itself. A value stays a finite tree all the same: such
an inner occurrence is a `ref`, and a `Graph` says which value it stands for. A walk exposes the
head of a value before it looks at it; whoever walks is responsible for its own bound.
-/

namespace RequestWriter

/-- A value without parts. -/
inductive Scalar where
  | null
  | bool (value : Bool)
  | int (value : Int)
  | float (value : Double)
  | text (value : String)
  | bytes (value : List UInt8)
  | date (value : Date)
  | timestamp (value : Timestamp)
  deriving DecidableEq, Repr, Inhabited

namespace Scalar

/-- The whole number that a truth value or a number is equal to, if there is one. -/
def toInt? : Scalar → Option Int
  | .bool b => some (if b then 1 else 0)
  | .int i => some i
  | .float d => d.toInt?
  | _ => none

/-- Equality of keys. Numbers are equal when their values are, whatever their kind, and the truth
values count as one and zero. -/
def same (a b : Scalar) : Bool :=
  match a, b with
  | .null, .null => true
  | .text s, .text t => s == t
  | .bytes s, .bytes t => s == t
  | .date s, .date t => s == t
  | .timestamp s, .timestamp t => s.same t
  | .float s, .float t => s.same t
  | _, _ =>
    match a.toInt?, b.toInt? with
    | some i, some j => i == j
    | _, _ => false

instance : BEq Scalar := ⟨same⟩

@[simp] theorem text_beq_text (s t : String) : (Scalar.text s == Scalar.text t) = (s == t) := rfl

/-- Whether the scalar counts as given: null, false, zero and empty text do not. -/
def truthy : Scalar → Bool
  | .null => false
  | .bool b => b
  | .int i => i != 0
  | .float d => !d.isZero
  | .text s => s != ""
  | .bytes b => !b.isEmpty
  | .date _ | .timestamp _ => true

end Scalar

/-- A scalar, a container of values, or a reference to a container that is still open around it. -/
inductive Value where
  | scalar (value : Scalar)
  | list (items : List Value)
  | mapping (entries : List (Scalar × Value))
  | ref (target : Nat)
  deriving Repr, Inhabited

/-- The containers that references stand for. -/
abbrev Graph := List (Nat × Value)

/-- A value with the graph of its references. -/
structure Document where
  graph : Graph
  root : Value
  deriving Repr, Inhabited

namespace Value

def null : Value := .scalar .null

def bool (b : Bool) : Value := .scalar (.bool b)

def int (i : Int) : Value := .scalar (.int i)

def text (s : String) : Value := .scalar (.text s)

/-- A mapping with text keys. -/
def object (entries : List (String × Value)) : Value :=
  .mapping (entries.map fun (k, v) => (.text k, v))

/-- Replaces a reference at the head by the container that it stands for. -/
def expose (g : Graph) : Value → Value
  | .ref i => (g.lookup i).getD null
  | v => v

@[simp] theorem expose_scalar (g : Graph) (s : Scalar) : expose g (.scalar s) = .scalar s := rfl
@[simp] theorem expose_list (g : Graph) (vs : List Value) : expose g (.list vs) = .list vs := rfl
@[simp] theorem expose_mapping (g : Graph) (es : List (Scalar × Value)) :
    expose g (.mapping es) = .mapping es := rfl

/-- Whether the value counts as given. A container does unless it is empty; a reference stands for
a container that has at least the part in which it occurs. -/
def truthy : Value → Bool
  | .scalar s => s.truthy
  | .list items => !items.isEmpty
  | .mapping entries => !entries.isEmpty
  | .ref _ => true

def isNull : Value → Bool
  | .scalar .null => true
  | _ => false

def isText (s : String) : Value → Bool
  | .scalar (.text t) => t == s
  | _ => false

def text? : Value → Option String
  | .scalar (.text s) => some s
  | _ => none

/-- The value under a text key, if the value is a mapping that has it. -/
def get? (key : String) : Value → Option Value
  | .mapping entries => Entries.get? (.text key) entries
  | _ => none

/-- The value under a text key, or null. -/
def getD (key : String) (v : Value) : Value := (v.get? key).getD null

end Value

end RequestWriter
