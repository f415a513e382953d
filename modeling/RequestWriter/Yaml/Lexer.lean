import RequestWriter.Yaml.Names
import RequestWriter.Yaml.Quoted
import RequestWriter.Yaml.Plain
import RequestWriter.Yaml.Block

/-!
# The tokens of a text

A text is cut into tokens from the front. Two things need memory. The columns of the open blocks
turn indentation into tokens that open and close a block. And a node that may turn out to be the key
of a mapping is remembered until the colon comes or cannot come any more, because the tokens that
say so stand in front of the node.

At a mistake the tokens up to there are still given, up to the first node of which it is still open
whether it is a key: nothing behind such a node can be read yet.
-/

namespace RequestWriter.Yaml

/-- A node that may be a key. -/
structure KeySlot where
  /-- The flow level on which the node stands; there is at most one slot for each. -/
  level : Nat
  /-- How many tokens stand in front of the node. -/
  place : Nat
  /-- Whether the node has to be a key, because it begins a line of a block mapping. -/
  required : Bool
  index : Nat
  line : Nat
  column : Nat

/-- How many characters a key may be away from its colon. -/
def longestKey : Nat := 1024

structure Lexer where
  cursor : Cursor
  /-- The number of flow collections that are open. -/
  level : Nat := 0
  /-- The columns of the open blocks, the innermost first. -/
  columns : List Nat := []
  /-- Whether a key may begin at the place. -/
  keyAllowed : Bool := true
  slots : List KeySlot := []
  /-- The tokens so far, the last one first. -/
  tokens : List Token := []
  /-- The number of tokens. -/
  count : Nat := 0

namespace Lexer

def inFlow (l : Lexer) : Bool := l.level != 0

/-- The column of the innermost open block, or minus one. -/
def indent (l : Lexer) : Int :=
  match l.columns with
  | [] => -1
  | column :: _ => column

def push (t : Token) (l : Lexer) : Lexer := { l with tokens := t :: l.tokens, count := l.count + 1 }

/-- Appends a token that takes a number of characters. -/
def pushMark (t : Token) (length : Nat) (l : Lexer) : Lexer :=
  { l.push t with cursor := l.cursor.skip length }

/-- A list with new items in front of its last `n` items, for a list in reverse order. -/
def insertBefore {α : Type} (new : List α) : Nat → List α → List α
  | 0, ts => new ++ ts
  | n + 1, t :: ts => t :: insertBefore new n ts
  | _ + 1, [] => new

/-- Puts tokens in front of the token at a place. The tokens are given the last one first. -/
def insertAt (place : Nat) (new : List Token) (l : Lexer) : Lexer :=
  { l with
    tokens := insertBefore new (l.count - place) l.tokens
    count := l.count + new.length }

def slot? (l : Lexer) : Option KeySlot := l.slots.find? fun s => s.level == l.level

/-- Forgets the slot of the present level. A node that has to be a key must not be forgotten. -/
def dropSlot (l : Lexer) : Except Problem Lexer := do
  demand (!l.slot?.any KeySlot.required)
  return { l with slots := l.slots.filter fun s => s.level != l.level }

/-- Remembers that the node at the place may be a key. -/
def openSlot (l : Lexer) : Except Problem Lexer :=
  if l.keyAllowed then do
    let l ← l.dropSlot
    let c := l.cursor
    let slot : KeySlot :=
      { level := l.level, place := l.count, required := !l.inFlow && l.indent == c.column,
        index := c.index, line := c.line, column := c.column }
    return { l with slots := slot :: l.slots }
  else .ok l

/-- Whether the colon of a slot cannot come any more at a place. -/
def KeySlot.isStale (c : Cursor) (s : KeySlot) : Bool :=
  s.line != c.line || longestKey < c.index - s.index

/-- Forgets the slots whose colon cannot come any more. -/
def dropStaleSlots (l : Lexer) : Except Problem Lexer := do
  let (stale, fresh) := l.slots.partition (KeySlot.isStale l.cursor)
  demand (!stale.any KeySlot.required)
  return { l with slots := fresh }

/-- Closes the blocks that stand further to the right than a column. Inside a flow collection
indentation means nothing. -/
def closeBlocks (column : Int) (l : Lexer) : Lexer :=
  if l.inFlow then l
  else
    let closed := l.columns.takeWhile fun x => column < Int.ofNat x
    { l with
      columns := l.columns.drop closed.length
      tokens := closed.map (fun _ => Token.blockEnd) ++ l.tokens
      count := l.count + closed.length }

/-- Opens a block at a column, if that is further to the right than the innermost one; then the
token is put at a place. -/
def openBlock (column place : Nat) (t : Token) (l : Lexer) : Lexer :=
  if l.indent < Int.ofNat column then
    { l.insertAt place [t] with columns := column :: l.columns }
  else l

/-- The place behind spaces, comments and line ends, and whether a line end was passed. The number
bounds the lines. -/
def skipEmpty : Nat → Cursor → Cursor × Bool
  | 0, c => (c, false)
  | bound + 1, c =>
    match c.skipSpaces.skipComment.lineBreak with
    | (some _, c) => ((skipEmpty bound c).1, true)
    | (none, c) => (c, false)

/-- Goes to the next token. A mark of the order of bytes counts as nothing at the very front. -/
def advance (l : Lexer) : Except Problem Lexer := do
  let c := if l.cursor.index = 0 && l.cursor.sees byteOrderMark then l.cursor.next else l.cursor
  let (c, newLine) := skipEmpty (c.rest.length + 1) c
  let l := { l with cursor := c, keyAllowed := l.keyAllowed || (newLine && !l.inFlow) }
  let l ← l.dropStaleSlots
  return l.closeBlocks c.column

def atEnd (l : Lexer) : Except Problem Lexer := do
  let l ← (l.closeBlocks (-1)).dropSlot
  return { l with keyAllowed := false, slots := [] }.push .endOfText

def atDirective (l : Lexer) : Except Problem Lexer := do
  let l ← (l.closeBlocks (-1)).dropSlot
  let (t, c) ← directive l.cursor
  return { l with keyAllowed := false, cursor := c }.push t

/-- The line that begins or ends a document. -/
def atDocumentMark (t : Token) (l : Lexer) : Except Problem Lexer := do
  let l ← (l.closeBlocks (-1)).dropSlot
  return { l with keyAllowed := false }.pushMark t 3

def atFlowStart (t : Token) (l : Lexer) : Except Problem Lexer := do
  let l ← l.openSlot
  return { l with level := l.level + 1, keyAllowed := true }.pushMark t 1

def atFlowEnd (t : Token) (l : Lexer) : Except Problem Lexer := do
  demand l.inFlow
  let l ← l.dropSlot
  return { l with level := l.level - 1, keyAllowed := false }.pushMark t 1

def atFlowEntry (l : Lexer) : Except Problem Lexer := do
  let l ← l.dropSlot
  return { l with keyAllowed := true }.pushMark .flowEntry 1

/-- The mark of an item of a block sequence. -/
def atBlockEntry (l : Lexer) : Except Problem Lexer := do
  demand (l.inFlow || l.keyAllowed)
  let l := if l.inFlow then l else l.openBlock l.cursor.column l.count .blockSequenceStart
  let l ← l.dropSlot
  return { l with keyAllowed := true }.pushMark .blockEntry 1

def atKey (l : Lexer) : Except Problem Lexer := do
  demand (l.inFlow || l.keyAllowed)
  let l := if l.inFlow then l else l.openBlock l.cursor.column l.count .blockMappingStart
  let l ← l.dropSlot
  return { l with keyAllowed := !l.inFlow }.pushMark .key 1

/-- The colon in front of a value. The node that waits for it becomes a key; without one the key is
empty, or it was marked. -/
def atValue (l : Lexer) : Except Problem Lexer := do
  match l.slot? with
  | some s =>
    let l := { l with slots := l.slots.filter fun s => s.level != l.level }
    let l := l.insertAt s.place [.key]
    let l := if l.inFlow then l else l.openBlock s.column s.place .blockMappingStart
    return { l with keyAllowed := false }.pushMark .value 1
  | none =>
    demand (l.inFlow || l.keyAllowed)
    let l := if l.inFlow then l else l.openBlock l.cursor.column l.count .blockMappingStart
    return { l with keyAllowed := !l.inFlow }.pushMark .value 1

/-- A part of a node that may stand in front of a colon. -/
def atNodePart (read : Cursor → Except Problem (Token × Cursor)) (l : Lexer) :
    Except Problem Lexer := do
  let l ← l.openSlot
  let (t, c) ← read l.cursor
  return { l with keyAllowed := false, cursor := c }.push t

def atBlockScalar (folded : Bool) (l : Lexer) : Except Problem Lexer := do
  let l ← l.dropSlot
  let (text, c) ← Block.scalar folded l.indent l.cursor
  return { l with keyAllowed := true, cursor := c }.push (.scalar text false)

def atPlain (l : Lexer) : Except Problem Lexer := do
  let l ← l.openSlot
  let (text, c, newLine) := Plain.scalar l.inFlow (l.indent + 1).toNat l.cursor
  return { l with keyAllowed := newLine, cursor := c }.push (.scalar text true)

def quoted (mark : Char) (c : Cursor) : Except Problem (Token × Cursor) :=
  (fun (text, c) => (.scalar text false, c)) <$> Quoted.scalar mark c

/-- The marks with which a plain scalar cannot begin. -/
def isIndicator (c : Char) : Bool := "-?:,[]\x7b\x7d#&*!|>'\"%@\x60".toList.contains c

/-- Whether a plain scalar begins at the place. -/
def startsPlain (inFlow : Bool) (c : Cursor) : Bool :=
  match c.peek with
  | none => false
  | some x =>
    !(isWideGap (some x) || isIndicator x)
      || (!isWideGap (c.peekAt 1) && (x == '-' || (!inFlow && (x == '?' || x == ':'))))

/-- Whether a mark at the place stands apart, so that it is a mark and not the beginning of a plain
scalar. -/
def standsApart (c : Cursor) : Bool := isWideGap (c.peekAt 1)

/-- Whether the place begins a line with this mark of a document. -/
def seesDocumentLine (mark : Char) (c : Cursor) : Bool :=
  c.column == 0 && c.sees mark && c.seesDocumentMark

def token (l : Lexer) : Except Problem Lexer :=
  let c := l.cursor
  match c.peek with
  | none => l.atEnd
  | some x =>
    if x = '%' && c.column = 0 then l.atDirective
    else if seesDocumentLine '-' c then l.atDocumentMark .documentStart
    else if seesDocumentLine '.' c then l.atDocumentMark .documentEnd
    else if x = '[' then l.atFlowStart .flowSequenceStart
    else if x = '\x7b' then l.atFlowStart .flowMappingStart
    else if x = ']' then l.atFlowEnd .flowSequenceEnd
    else if x = '\x7d' then l.atFlowEnd .flowMappingEnd
    else if x = ',' then l.atFlowEntry
    else if x = '-' && standsApart c then l.atBlockEntry
    else if x = '?' && (l.inFlow || standsApart c) then l.atKey
    else if x = ':' && (l.inFlow || standsApart c) then l.atValue
    else if x = '*' then
      l.atNodePart fun c => (fun (name, c) => (.alias_ name, c)) <$> anchorName c
    else if x = '&' then
      l.atNodePart fun c => (fun (name, c) => (.anchor name, c)) <$> anchorName c
    else if x = '!' then l.atNodePart fun c => (fun (tag, c) => (.tag tag, c)) <$> tagText c
    else if x = '|' && !l.inFlow then l.atBlockScalar false
    else if x = '>' && !l.inFlow then l.atBlockScalar true
    else if x = '\'' || x = '"' then l.atNodePart (quoted x)
    else if startsPlain l.inFlow c then l.atPlain
    else .error .malformed

/-- The tokens that can be read before a mistake. -/
def settled (l : Lexer) : List Token :=
  let place := l.slots.foldl (fun least s => min least s.place) l.count
  l.tokens.reverse.take place

/-- The tokens from the place on, and the problem that cuts them off, if there is one. The number
bounds the tokens. -/
def run : Nat → Lexer → List Token × Option Problem
  | 0, l => (l.settled, some .malformed)
  | bound + 1, l =>
    match l.advance with
    | .error problem => (l.settled, some problem)
    | .ok l =>
      match l.token with
      | .error problem => (l.settled, some problem)
      | .ok after => if l.cursor.peek.isNone then (after.tokens.reverse, none) else run bound after

end Lexer

/-- The tokens of a text, and the problem that cuts them off, if there is one. -/
def tokens (text : String) : List Token × Option Problem :=
  Lexer.run (text.length + 2) { cursor := Cursor.ofText text }

end RequestWriter.Yaml
