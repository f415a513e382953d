import RequestWriter.Yaml.Cursor
import RequestWriter.Yaml.Token
import RequestWriter.Text.Hexadecimal
import RequestWriter.Text.Utf8

/-!
# Names, tags and directives

The parts of a YAML text that are no values: the names of anchors, the tags of nodes, and the
instructions in front of a document.
-/

namespace RequestWriter.Yaml

def isNameChar (c : Char) : Bool := c.isAlphanum || c == '-' || c == '_'

def demand (condition : Bool) : Except Problem Unit :=
  if condition then .ok () else .error .malformed

/-- The characters that may stand directly behind the name of an anchor. -/
def endsAnchor : Option Char → Bool
  | some c => isWideGap (some c) || "?:,]\x7d%@\x60".toList.contains c
  | none => true

/-- The name of an anchor or an alias, behind its mark. -/
def anchorName (c : Cursor) : Except Problem (String × Cursor) := do
  let (name, c) := c.next.span isNameChar
  demand (!name.isEmpty && endsAnchor c.peek)
  return (String.ofList name, c)

/-- The characters of a tag that stand for themselves. -/
def isTagChar (c : Char) : Bool :=
  c.isAlphanum || "-;/?:@&=+$,_.!~*'()[]".toList.contains c

/-- The octets that a run of percent escapes spells. The number bounds their count. -/
def escapedOctets : Nat → Cursor → Except Problem (List UInt8 × Cursor)
  | 0, c => .ok ([], c)
  | bound + 1, c =>
    if c.sees '%' then
      match Text.hexNumber? 2 c.next.rest with
      | some n => do
        let (octets, c) ← escapedOctets bound (c.skip 3)
        return (UInt8.ofNat n :: octets, c)
      | none => .error .malformed
    else .ok ([], c)

/-- The characters of a tag. An escape stands for an octet of an encoded character. The number
bounds the parts. -/
def tagChars : Nat → Cursor → Except Problem (List Char × Cursor)
  | 0, c => .ok ([], c)
  | bound + 1, c =>
    let (plain, c) := c.span isTagChar
    if c.sees '%' then do
      let (octets, c) ← escapedOctets c.rest.length c
      match Text.utf8Chars? octets with
      | some chars =>
        let (others, c) ← tagChars bound c
        return (plain ++ chars ++ others, c)
      | none => .error .malformed
    else .ok (plain, c)

/-- Whether a run of characters of a tag begins here. -/
def seesTagChar (c : Cursor) : Bool := c.peek.any fun x => isTagChar x || x == '%'

/-- The body of a tag, which has at least one character. -/
def tagBody (c : Cursor) : Except Problem (String × Cursor) := do
  demand (seesTagChar c)
  let (chars, c) ← tagChars c.rest.length c
  return (String.ofList chars, c)

/-- A handle of tags: a mark, or a name between two marks. -/
def tagHandle (c : Cursor) : Except Problem (String × Cursor) := do
  demand (c.sees '!')
  let (name, behind) := c.next.span isNameChar
  if name.isEmpty && behind.sees ' ' then return ("!", behind)
  else
    demand (behind.sees '!')
    return (String.ofList ('!' :: name ++ ['!']), behind.next)

/-- Whether another mark follows in the word behind a mark. -/
def namesHandle (c : Cursor) : Bool :=
  ((c.rest.takeWhile fun x => !isGap (some x)).contains '!')

def tagText (c : Cursor) : Except Problem (TagText × Cursor) := do
  let (tag, c) ←
    match c.peekAt 1 with
    | some '<' => do
      let (body, c) ← tagBody (c.skip 2)
      demand (c.sees '>')
      pure (⟨none, body⟩, c.next)
    | x =>
      if isWideGap x then pure (⟨none, "!"⟩, c.next)
      else do
        let (handle, c) ← if namesHandle c.next then tagHandle c else pure ("!", c.next)
        let (body, c) ← tagBody c
        pure (⟨some handle, body⟩, c)
  demand (isGap c.peek)
  return (tag, c)

def directiveNumber (c : Cursor) : Except Problem (Nat × Cursor) := do
  let (digits, c) := c.span Char.isDigit
  demand (!digits.isEmpty)
  return (digits.foldl (fun n d => 10 * n + (d.toNat - 48)) 0, c)

def versionDirective (c : Cursor) : Except Problem (Token × Cursor) := do
  let (major, c) ← directiveNumber c.skipSpaces
  demand (c.sees '.')
  let (_, c) ← directiveNumber c.next
  demand (isGap c.peek)
  return (.version major, c)

/-- The handle of an instruction and what it stands for. -/
def handleDirective (c : Cursor) : Except Problem (Token × Cursor) := do
  let (handle, c) ← tagHandle c.skipSpaces
  demand (c.sees ' ')
  let (beginning, c) ← tagBody c.skipSpaces
  demand (isGap c.peek)
  return (.tagHandle handle beginning, c)

/-- The place behind a line on which nothing but a comment may follow. -/
def restOfLine (c : Cursor) : Except Problem Cursor := do
  let c := c.skipSpaces.skipComment
  demand (endsLine c.peek)
  return c.lineBreak.2

def directive (c : Cursor) : Except Problem (Token × Cursor) := do
  let (name, c) := c.next.span isNameChar
  demand (!name.isEmpty && isGap c.peek)
  let (token, c) ←
    if name = "YAML".toList then versionDirective c
    else if name = "TAG".toList then handleDirective c
    else pure (.otherDirective, c.skipLine)
  let c ← restOfLine c
  return (token, c)

end RequestWriter.Yaml
