import RequestWriter.Yaml.Cursor

/-!
# Plain scalars

A scalar without quotes. It ends before a colon or a number sign that stands apart, in a flow
collection also before the marks of the collection, and where the next line is indented less than
it has to be. A line end inside it becomes a space, and each empty line a line end of the value.
-/

namespace RequestWriter.Yaml.Plain

def isFlowMark (c : Char) : Bool := [',', '[', ']', '\x7b', '\x7d'].contains c

/-- Whether a colon ends the scalar, by the character behind it. -/
def endsAtColon (inFlow : Bool) (behind : Option Char) : Bool :=
  isWideGap behind || (inFlow && behind.any isFlowMark)

/-- The characters of a word at the front. -/
def word (inFlow : Bool) : List Char → List Char
  | [] => []
  | x :: rest =>
    if isWideGap (some x) || (x == ':' && endsAtColon inFlow rest.head?)
        || (inFlow && (isFlowMark x || x == '?')) then []
    else x :: word inFlow rest

structure Space where
  /-- The characters of the value; none where the scalar ends. -/
  text : List Char
  cursor : Cursor
  /-- Whether a line end was passed. -/
  newLine : Bool

/-- The empty lines behind a line end: the line ends of the value and the place behind them and
behind the spaces, or nothing where a document begins or ends. The number bounds the lines. -/
def emptyLines? : Nat → Cursor → Option (List Char) × Cursor
  | 0, c => (some [], c)
  | bound + 1, c =>
    if c.seesDocumentMark then (none, c)
    else
      match c.skipSpaces.lineBreak with
      | (some x, c) =>
        let (others, c) := emptyLines? bound c
        (others.map (x :: ·), c)
      | (none, c) => (some [], c)

def space (c : Cursor) : Space :=
  let (taken, c) := c.span (· == ' ')
  match c.lineBreak with
  | (none, c) => ⟨taken, c, false⟩
  | (some x, c) =>
    match emptyLines? (c.rest.length + 1) c with
    | (none, c) => ⟨[], c, true⟩
    | (some empty, c) =>
      let text := if x ≠ '\n' then x :: empty else if empty.isEmpty then [' '] else empty
      ⟨text, c, true⟩

/-- The words from the place on with the spaces between them, the place behind them, and whether
the last space passed a line end. `before` is the space that leads to the place. The number bounds
the words. -/
def words (inFlow : Bool) (indent : Nat) : Nat → List Char → Bool → Cursor →
    List Char × Cursor × Bool
  | 0, _, newLine, c => ([], c, newLine)
  | bound + 1, before, newLine, c =>
    let taken := word inFlow c.rest
    if c.sees '#' || taken.isEmpty then ([], c, newLine)
    else
      let behind := space (c.skip taken.length)
      if behind.text.isEmpty || behind.cursor.sees '#'
          || (!inFlow && behind.cursor.column < indent) then
        (before ++ taken, behind.cursor, behind.newLine)
      else
        let (others, c, newLine) := words inFlow indent bound behind.text behind.newLine
          behind.cursor
        (before ++ taken ++ others, c, newLine)

/-- The scalar at the place, the place behind it, and whether it was followed by a line end, so that
a key may begin there. -/
def scalar (inFlow : Bool) (indent : Nat) (c : Cursor) : String × Cursor × Bool :=
  let (chars, c, newLine) := words inFlow indent (c.rest.length + 1) [] false c
  (String.ofList chars, c, newLine)

end RequestWriter.Yaml.Plain
