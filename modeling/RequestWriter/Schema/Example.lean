import RequestWriter.Value.Access
import RequestWriter.Log

/-!
# Examples from schemas

A representative value of a schema. An explicit example wins over everything else; objects keep the
declared order of their properties; a schema that is too deep, usually one that contains itself,
gives null and leaves a record.

The walk is a recursion on the number of levels that are left, so a schema may contain itself. The
value and the steps of the walk are separate functions that go the same way; a step fails where the
schema lists its choices in something that cannot be indexed.
-/

namespace RequestWriter.Schema

/-- The bound on the depth when none is given. -/
def defaultMaxDepth : Int := 32

/-- The value of a text schema, given its choices. -/
def textExample (g : Graph) (choices : Value) : Except Fault Value :=
  if choices.truthy then choices.first g else .ok (Value.text "string")

/-- The part of a schema that decides which value stands for it. -/
inductive Shape where
  /-- No schema at all. -/
  | absent
  /-- Something that is no mapping, or a mapping without a known type. -/
  | unknown
  | given (value : Value)
  | object (properties : List (Scalar × Value))
  | array (items : Value)
  | text (choices : Value)
  | number
  | boolean
  | emptyArray
  | emptyObject
  deriving Repr

/-- The shape of a mapping with a type and without an example. -/
def typedShape (g : Graph) (type properties items choices : Value) : Shape :=
  match type with
  | .scalar (.text "object") =>
    match properties.expose g with
    | .mapping entries => .object entries
    | _ => .emptyObject
  | .scalar (.text "array") => if items.isNull then .emptyArray else .array items
  | .scalar (.text "string") => .text choices
  | .scalar (.text "number") | .scalar (.text "integer") => .number
  | .scalar (.text "boolean") => .boolean
  | _ => .unknown

def shape (g : Graph) (schema : Value) : Shape :=
  match schema.expose g with
  | .scalar .null => .absent
  | .mapping entries =>
    let s := Value.mapping entries
    match s.get? "example" with
    | some v => .given v
    | none =>
      typedShape g (s.getD "type") (s.getD "properties") (s.getD "items") (s.getD "enum")
  | _ => .unknown

/-- The value that stands for a schema, with a number of levels left. Where the walk fails the
value is null and does not matter. -/
def sample (g : Graph) : Nat → Value → Value
  | 0, _ => Value.null
  | left + 1, schema =>
    match shape g schema with
    | .absent | .emptyObject => .mapping []
    | .unknown => Value.null
    | .given v => v
    | .object properties => .mapping (properties.map fun p => (p.1, sample g left p.2))
    | .array items => .list [sample g left items]
    | .text choices => (textExample g choices).toOption.getD Value.null
    | .number => Value.int 0
    | .boolean => Value.bool false
    | .emptyArray => .list []

/-- The record of a schema that lies too deep. -/
def cutoff (maxDepth : Int) : LogRecord :=
  ⟨.debug, "request_snippets.parser.example",
    s!"Schema nesting exceeds {maxDepth} levels, stopping"⟩

/-- What the walk over a schema meets. -/
def steps (g : Graph) (maxDepth : Int) : Nat → Value → List Step
  | 0, _ => [.record (cutoff maxDepth)]
  | left + 1, schema =>
    match shape g schema with
    | .object properties => properties.flatMap fun p => steps g maxDepth left p.2
    | .array items => steps g maxDepth left items
    | .text choices =>
      match textExample g choices with
      | .ok _ => []
      | .error fault => [.fail fault]
    | _ => []

/-- The levels that are left at a depth under a bound. -/
def levelsLeft (depth maxDepth : Int) : Nat := (maxDepth - depth + 1).toNat

/-- The value that stands for a schema at a depth, under a bound. -/
def synthesizeAt (doc : Document) (depth maxDepth : Int) : Logged Value :=
  let left := levelsLeft depth maxDepth
  Step.play (sample doc.graph left doc.root) (steps doc.graph maxDepth left doc.root)

/-- The value that stands for a schema, under the usual bound. -/
def synthesize (doc : Document) : Logged Value := synthesizeAt doc 0 defaultMaxDepth

end RequestWriter.Schema
