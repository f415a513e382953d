import RequestWriter.Yaml.Names

/-!
# Block scalars

A scalar that is the indented lines behind a bar or an angle bracket. Behind a bar every line end
stays; behind an angle bracket single line ends between lines that are not indented further become
spaces. The header says how the line ends behind the last line are treated, and may say how far the
lines are indented.
-/

namespace RequestWriter.Yaml.Block

/-- What happens to the line ends behind the last line. -/
inductive Chomping where
  /-- One stays. -/
  | clip
  /-- None stays. -/
  | strip
  /-- All stay. -/
  | keep
  deriving DecidableEq, Repr

/-- The treatment that a sign asks for. -/
def chompingOf? : Char → Option Chomping
  | '+' => some .keep
  | '-' => some .strip
  | _ => none

/-- The sign of a header, if there is one. -/
def chomping? (c : Cursor) : Option Chomping × Cursor :=
  match c.peek.bind chompingOf? with
  | some chomping => (some chomping, c.next)
  | none => (none, c)

/-- The depth that a header gives, if it gives one. Zero is no depth. -/
def depth? (c : Cursor) : Except Problem (Option Nat × Cursor) :=
  match c.peek with
  | some x =>
    if x = '0' then .error .malformed
    else if x.isDigit then .ok (some (x.toNat - 48), c.next)
    else .ok (none, c)
  | none => .ok (none, c)

/-- A header: sign and depth in either order. -/
def header (c : Cursor) : Except Problem ((Chomping × Option Nat) × Cursor) := do
  let (chomping, c) := chomping? c
  let (depth, c) ← depth? c
  let (chomping, c) := match chomping, depth with
    | none, some _ => chomping? c
    | _, _ => (chomping, c)
  demand (isGap c.peek)
  return ((chomping.getD .clip, depth), c)

/-- The empty lines in front of a scalar whose depth is not given: their line ends, and the widest
indentation among them and the first line. The number bounds the characters. -/
def leadingLines : Nat → Nat → Cursor → (List Char × Nat) × Cursor
  | 0, widest, c => (([], widest), c)
  | bound + 1, widest, c =>
    match c.lineBreak with
    | (some x, c) =>
      let ((others, widest), c) := leadingLines bound widest c
      ((x :: others, widest), c)
    | (none, c) =>
      if c.sees ' ' then leadingLines bound (max widest c.next.column) c.next
      else (([], widest), c)

/-- The place behind the spaces up to a column. The number bounds the spaces. -/
def indentTo (column : Nat) : Nat → Cursor → Cursor
  | 0, c => c
  | bound + 1, c =>
    if c.column < column && c.sees ' ' then indentTo column bound c.next else c

/-- The empty lines between two lines, and the place behind the indentation of the next one. The
number bounds the lines. -/
def emptyLines (column : Nat) : Nat → Cursor → List Char × Cursor
  | 0, c => ([], c)
  | bound + 1, c =>
    match (indentTo column column c).lineBreak with
    | (some x, c) =>
      let (others, c) := emptyLines column bound c
      (x :: others, c)
    | (none, c) => ([], c)

/-- Whether there is a further line at the place. -/
def goesOn (column : Nat) (c : Cursor) : Bool := c.column == column && c.peek.isSome

/-- Whether the place is neither a space nor a tab. -/
def isFlush (c : Cursor) : Bool := !c.peek.any isBlank

/-- The line end between two lines as it stands in the value. -/
def joint (folded : Bool) (lineEnd : Option Char) (flush : Bool) (empty : List Char) :
    List Char :=
  if folded && lineEnd == some '\n' && flush then if empty.isEmpty then [' '] else []
  else lineEnd.toList

/-- The lines from the place on, with the line end behind the last one and the empty lines behind
it. `before` holds the empty lines in front of the place. The number bounds the lines. -/
def lines (folded : Bool) (column : Nat) : Nat → List Char → Option Char → Cursor →
    (List Char × Option Char × List Char) × Cursor
  | 0, before, lineEnd, c => (([], lineEnd, before), c)
  | bound + 1, before, lineEnd, c =>
    if goesOn column c then
      let flush := isFlush c
      let (line, c) := c.span fun x => !isBreak x
      let (lineEnd, c) := c.lineBreak
      let (empty, c) := emptyLines column (c.rest.length + 1) c
      if goesOn column c then
        let between := joint folded lineEnd (flush && isFlush c) empty
        let ((others, lineEnd, empty), c) := lines folded column bound empty lineEnd c
        ((before ++ line ++ between ++ others, lineEnd, empty), c)
      else ((before ++ line, lineEnd, empty), c)
    else (([], lineEnd, before), c)

/-- The scalar whose mark is at the place. The lines are indented further than `indent`, the column
of the block around them. -/
def scalar (folded : Bool) (indent : Int) (c : Cursor) : Except Problem (String × Cursor) := do
  let ((chomping, depth), c) ← header c.next
  let c ← restOfLine c
  let least := (max (indent + 1) 1).toNat
  let (column, empty, c) := match depth with
    | some depth =>
      let column := least + depth - 1
      let (empty, c) := emptyLines column (c.rest.length + 1) c
      (column, empty, c)
    | none =>
      let ((empty, widest), c) := leadingLines (c.rest.length + 1) 0 c
      (max least widest, empty, c)
  let ((chars, lineEnd, empty), c) := lines folded column (c.rest.length + 1) empty none c
  let chars := match chomping with
    | .strip => chars
    | .clip => chars ++ lineEnd.toList
    | .keep => chars ++ lineEnd.toList ++ empty
  return (String.ofList chars, c)

end RequestWriter.Yaml.Block
