/-!
# Places in a YAML text

A cursor is the rest of a text together with its place: how many characters were passed, the line,
and the column. Line ends are newline, next line, and the two separators of lines and paragraphs;
carriage returns are gone before a text gets here. A byte order mark takes no column.

The end of the text counts as a character of its own kind: every class of characters below says
whether the end belongs to it.
-/

namespace RequestWriter.Yaml

structure Cursor where
  rest : List Char
  index : Nat := 0
  line : Nat := 0
  column : Nat := 0

def isBreak (c : Char) : Bool :=
  c == '\n' || c == '\x85' || c == '\u2028' || c == '\u2029'

/-- Whether a character is a space or a tab. -/
def isBlank (c : Char) : Bool := c == ' ' || c == '\t'

/-- The end of the text or of a line. -/
def endsLine : Option Char → Bool
  | none => true
  | some c => isBreak c

/-- The end of the text or of a line, or a space. -/
def isGap : Option Char → Bool
  | none => true
  | some c => isBreak c || c == ' '

/-- The end of the text or of a line, a space, or a tab. -/
def isWideGap : Option Char → Bool
  | none => true
  | some c => isBreak c || isBlank c

/-- The mark that may stand in front of a text. -/
def byteOrderMark : Char := '\uFEFF'

namespace Cursor

/-- The place at the front of a text. -/
def ofText (s : String) : Cursor := { rest := s.toList }

def peekAt (c : Cursor) (distance : Nat) : Option Char := c.rest[distance]?

def peek (c : Cursor) : Option Char := c.rest.head?

/-- Whether this very character is at the place. -/
def sees (c : Cursor) (x : Char) : Bool := c.peek == some x

def next (c : Cursor) : Cursor :=
  match c.rest with
  | [] => c
  | x :: rest =>
    if isBreak x then ⟨rest, c.index + 1, c.line + 1, 0⟩
    else ⟨rest, c.index + 1, c.line, if x = byteOrderMark then c.column else c.column + 1⟩

def skip : Nat → Cursor → Cursor
  | 0, c => c
  | n + 1, c => skip n c.next

/-- The characters at the front that belong to a class, and the place behind them. -/
def span (p : Char → Bool) (c : Cursor) : List Char × Cursor :=
  let taken := c.rest.takeWhile p
  (taken, skip taken.length c)

/-- The place behind the characters of a class. -/
def skipWhile (p : Char → Bool) (c : Cursor) : Cursor := (c.span p).2

def skipSpaces (c : Cursor) : Cursor := c.skipWhile (· == ' ')

/-- The place at the end of the line. -/
def skipLine (c : Cursor) : Cursor := c.skipWhile fun x => !isBreak x

/-- The place behind a comment, if one begins here. -/
def skipComment (c : Cursor) : Cursor := if c.sees '#' then c.skipLine else c

/-- What a line end stands for in a value: a newline, or itself if it is a separator. -/
def breakText (x : Char) : Char := if x = '\x85' then '\n' else x

/-- The line end at the place, if there is one, and the place behind it. -/
def lineBreak (c : Cursor) : Option Char × Cursor :=
  match c.peek with
  | some x => if isBreak x then (some (breakText x), c.next) else (none, c)
  | none => (none, c)

/-- Whether a line at the place would begin or end a document. -/
def seesDocumentMark (c : Cursor) : Bool :=
  (['-', '-', '-'].isPrefixOf c.rest || ['.', '.', '.'].isPrefixOf c.rest)
    && isWideGap (c.peekAt 3)

end Cursor

inductive Problem where
  /-- The text is not one well formed document. -/
  | malformed
  /-- A scalar does not spell a value of its kind. -/
  | badScalar
  /-- A truth value is spelled by no known word. -/
  | unknownWord
  /-- A number has no digit to look at. -/
  | emptyNumber
  /-- A moment is not spelled as one. -/
  | noMoment
  /-- An escape has a code beyond all integers of the machine. -/
  | hugeCode
  deriving DecidableEq, Repr

end RequestWriter.Yaml
