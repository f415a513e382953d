import RequestWriter.Literal.Dialect
import RequestWriter.Json.Printer
import RequestWriter.Log

/-!
# Values as source text

A value is written as a literal of a dialect. Containers are blocks of one entry a line, two blanks
deeper than the brackets. The depth is bounded: a value that lies inside too many containers is
written as null, and a record is left for each one.

The bound is a number of levels that are left, and the recursion is on it; so a value that contains
itself needs no care. The walk that collects the records goes the same way as the writer.
-/

namespace RequestWriter.Literal

/-- The bound on the depth when none is given. -/
def defaultMaxDepth : Int := 32

def pad (level : Int) : String := String.ofList (List.replicate (2 * level.toNat) ' ')

/-- Entries between brackets, one a line. -/
def block (opening closing : String) (level : Int) (entries : List String) : String :=
  if entries.isEmpty then opening ++ closing
  else opening ++ "\n" ++ Text.join ",\n" entries ++ "\n" ++ pad level ++ closing

/-- A scalar as a literal. What has no literal of its own is written as the string of its display
form. -/
def scalar (d : Dialect) : Scalar → String
  | .null => d.null
  | .bool b => if b then d.yes else d.no
  | .int i => toString i
  | .float f => Decimal.sourceNotation.write f
  | s => d.quote s.display

/-- A value as a literal, at a level of indentation, with a number of levels left. -/
def render (d : Dialect) (g : Graph) : Nat → Int → Value → String
  | 0, _, _ => d.null
  | left + 1, level, v =>
    match v.expose g with
    | .scalar s => scalar d s
    | .list items =>
      block "[" "]" level
        (items.map fun item => pad (level + 1) ++ render d g left (level + 1) item)
    | .mapping entries =>
      block "\x7b" "\x7d" level (entries.map fun entry =>
        pad (level + 1) ++ d.quote entry.1.display ++ d.keySeparator
          ++ render d g left (level + 1) entry.2)
    | .ref _ => d.null

/-- The record of a value that lies too deep. -/
def truncation (maxDepth : Int) : LogRecord :=
  ⟨.debug, "request_snippets.render.literal",
    s!"Literal nesting exceeds {maxDepth} levels, truncating"⟩

/-- The step of writing a whole number: one with too many digits cannot be written. -/
def scalarSteps (s : Scalar) : List Step :=
  match Json.scalarFault? s with
  | some fault => [.fail fault]
  | none => []

/-- What the writer meets on its way, in the order of the text. -/
def steps (g : Graph) (maxDepth : Int) : Nat → Value → List Step
  | 0, _ => [.record (truncation maxDepth)]
  | left + 1, v =>
    match v.expose g with
    | .scalar s => scalarSteps s
    | .list items => items.flatMap (steps g maxDepth left)
    | .mapping entries =>
      entries.flatMap fun entry => scalarSteps entry.1 ++ steps g maxDepth left entry.2
    | .ref _ => []

/-- The levels that are left at an indentation under a bound. -/
def levelsLeft (indent maxDepth : Int) : Nat := (maxDepth - indent + 1).toNat

/-- A value as a literal of a target, with its records. -/
def serialize (target : Target) (doc : Document) (indent maxDepth : Int) : Logged String :=
  let left := levelsLeft indent maxDepth
  Step.play (render target.dialect doc.graph left indent doc.root)
    (steps doc.graph maxDepth left doc.root)

end RequestWriter.Literal
