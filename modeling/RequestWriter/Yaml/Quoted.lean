import RequestWriter.Yaml.Cursor
import RequestWriter.Text.Hexadecimal

/-!
# Quoted scalars

A scalar between single quotes, in which a quote is written twice, or between double quotes, with
escapes. It may go on over several lines: a line end becomes a space, and each empty line a line
end of the value.
-/

namespace RequestWriter.Yaml.Quoted

/-- The character that an escape of one letter stands for. -/
def escapeValue? : Char → Option Char
  | '0' => some '\x00'
  | 'a' => some '\x07'
  | 'b' => some '\x08'
  | 't' => some '\t'
  | '\t' => some '\t'
  | 'n' => some '\n'
  | 'v' => some '\x0b'
  | 'f' => some '\x0c'
  | 'r' => some '\r'
  | 'e' => some '\x1b'
  | ' ' => some ' '
  | '"' => some '"'
  | '\\' => some '\\'
  | '/' => some '/'
  | 'N' => some '\x85'
  | '_' => some '\xa0'
  | 'L' => some '\u2028'
  | 'P' => some '\u2029'
  | _ => none

/-- How many digits follow the letter of an escape by code. -/
def codeLength? : Char → Option Nat
  | 'x' => some 2
  | 'u' => some 4
  | 'U' => some 8
  | _ => none

def ofCode (code : Nat) : Except Problem Char :=
  if code < 0x110000 then .ok (Char.ofNat code)
  else if code < 0x80000000 then .error .badScalar
  else .error .hugeCode

/-- The empty lines behind a line end: the line ends of the value, and the place of the first
character that is neither blank nor a line end. The number bounds the lines. -/
def emptyLines : Nat → Cursor → Except Problem (List Char × Cursor)
  | 0, c => .ok ([], c)
  | bound + 1, c =>
    if c.seesDocumentMark then .error .malformed
    else
      match (c.skipWhile isBlank).lineBreak with
      | (some x, c) => do
        let (others, c) ← emptyLines bound c
        return (x :: others, c)
      | (none, c) => .ok ([], c)

/-- The blanks inside a scalar: themselves within a line, and folded at its end. -/
def blanks (c : Cursor) : Except Problem (List Char × Cursor) := do
  let (taken, c) := c.span isBlank
  if c.peek.isNone then .error .malformed
  else
    match c.lineBreak with
    | (none, c) => return (taken, c)
    | (some x, c) =>
      let (empty, c) ← emptyLines (c.rest.length + 1) c
      if x ≠ '\n' then return (x :: empty, c)
      else if empty.isEmpty then return ([' '], c)
      else return (empty, c)

/-- The value of an escape behind its backslash. -/
def escape (c : Cursor) : Except Problem (List Char × Cursor) :=
  match c.peek with
  | none => .error .malformed
  | some x =>
    match escapeValue? x, codeLength? x with
    | some y, _ => .ok ([y], c.next)
    | none, some count =>
      match Text.hexNumber? count c.next.rest with
      | some code => do
        let y ← ofCode code
        return ([y], c.skip (count + 1))
      | none => .error .malformed
    | none, none => if isBreak x then emptyLines (c.rest.length + 1) c.next else .error .malformed

/-- The value up to the closing mark, and the place behind it. The number bounds the parts. -/
def body (mark : Char) : Nat → Cursor → Except Problem (List Char × Cursor)
  | 0, _ => .error .malformed
  | bound + 1, c =>
    match c.peek with
    | none => .error .malformed
    | some x => do
      if x = mark then
        if mark = '\'' && c.peekAt 1 == some '\'' then
          let (others, c) ← body mark bound (c.skip 2)
          return ('\'' :: others, c)
        else return ([], c.next)
      else
        let (part, c) ←
          if isBreak x || isBlank x then blanks c
          else if mark = '"' && x = '\\' then escape c.next
          else pure ([x], c.next)
        let (others, c) ← body mark bound c
        return (part ++ others, c)

/-- The scalar whose opening mark is at the place. -/
def scalar (mark : Char) (c : Cursor) : Except Problem (String × Cursor) := do
  let (chars, c) ← body mark (c.rest.length + 1) c.next
  return (String.ofList chars, c)

end RequestWriter.Yaml.Quoted
