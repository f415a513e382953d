import RequestWriter.Yaml.Scalar
import RequestWriter.Yaml.Lexer

/-!
# Nodes of a document

The tree that the tokens of a text describe. An alias of a node that is complete is that node again.
An alias of a container that is still open leads back to it; so a document may contain itself, and
the tree is finite all the same. Every container has a number of its own, by which such a way back
is named.

The readers of containers take the reader of their items as an argument, so that the recursion on
the nesting is a recursion on a number.
-/

namespace RequestWriter.Yaml

inductive Node where
  | scalar (tag : Tag) (text : String)
  | sequence (id : Nat) (tag : Tag) (items : List Node)
  | mapping (id : Nat) (tag : Tag) (pairs : List (Node × Node))
  /-- The container around this place that has the number. -/
  | back (id : Nat)
  deriving Repr, Inhabited

namespace Node

def empty : Node := .scalar .null ""

/-- What the name of an anchor stands for. -/
inductive Anchor where
  /-- A container that is not complete yet. -/
  | opened (id : Nat)
  | complete (node : Node)

inductive Stop where
  /-- The tokens do not fit together. -/
  | malformed
  /-- The tokens are used up before their end. -/
  | cutOff
  deriving DecidableEq, Repr

structure State where
  tokens : List Token
  anchors : List (String × Anchor) := []
  /-- What the handles of tags stand for. -/
  handles : List (String × String) := []

abbrev Reader (α : Type) := StateT State (Except Stop) α

namespace Reader

def peek : Reader Token := do
  match (← get).tokens with
  | t :: _ => return t
  | [] => throw .cutOff

def drop : Reader Unit := modify fun s => { s with tokens := s.tokens.tail }

def refuse {α : Type} : Reader α := throw .malformed

/-- Drops the next token, which has to be this one. -/
def expect (t : Token) : Reader Unit := do
  if (← peek) = t then drop else refuse

/-- Drops the next token if it is this one, and says whether it was. -/
def accept (t : Token) : Reader Bool := do
  if (← peek) = t then
    drop
    return true
  else return false

/-- A node, or an empty one if the next token is one of those that end a place. -/
def nodeUnless (ends : List Token) (node : Reader Node) : Reader Node := do
  if ends.contains (← peek) then return empty else node

/-- The items of a block sequence. The number bounds them. -/
def blockItems (node : Reader Node) : Nat → Reader (List Node)
  | 0 => refuse
  | bound + 1 => do
    if ← accept .blockEntry then
      let item ← nodeUnless [.blockEntry, .blockEnd] node
      return item :: (← blockItems node bound)
    else
      expect .blockEnd
      return []

/-- The items of a block sequence that is not indented further than the mapping around it. It ends
where something else begins. -/
def flushItems (node : Reader Node) : Nat → Reader (List Node)
  | 0 => refuse
  | bound + 1 => do
    if ← accept .blockEntry then
      let item ← nodeUnless [.blockEntry, .key, .value, .blockEnd] node
      return item :: (← flushItems node bound)
    else return []

def blockPairs (node : Reader Node) : Nat → Reader (List (Node × Node))
  | 0 => refuse
  | bound + 1 => do
    if ← accept .blockEnd then return []
    else
      expect .key
      let key ← nodeUnless [.key, .value, .blockEnd] node
      let value ←
        if ← accept .value then nodeUnless [.key, .value, .blockEnd] node else pure empty
      return (key, value) :: (← blockPairs node bound)

/-- The value of a pair in a flow collection that ends with a token. -/
def flowValue (node : Reader Node) (close : Token) : Reader Node := do
  if ← accept .value then nodeUnless [.flowEntry, close] node else return empty

/-- An item of a flow sequence. A pair is a mapping with this one pair. -/
def flowItem (node : Reader Node) : Reader Node := do
  let id := (← get).tokens.length
  if ← accept .key then
    let key ← nodeUnless [.value, .flowEntry, .flowSequenceEnd] node
    let value ← flowValue node .flowSequenceEnd
    return .mapping id .mapping [(key, value)]
  else node

/-- A pair of a flow mapping. A node without a value stands for itself alone. -/
def flowPair (node : Reader Node) : Reader (Node × Node) := do
  if ← accept .key then
    let key ← nodeUnless [.value, .flowEntry, .flowMappingEnd] node
    return (key, ← flowValue node .flowMappingEnd)
  else return (← node, empty)

/-- The parts of a flow collection up to its closing mark. A comma may stand behind the last part.
`first` says that no part was read yet. -/
def flowParts {α : Type} (part : Reader α) (close : Token) (first : Bool) : Nat → Reader (List α)
  | 0 => refuse
  | bound + 1 => do
    if ← accept close then return []
    else
      unless first do expect .flowEntry
      if ← accept close then return []
      else
        let head ← part
        return head :: (← flowParts part close false bound)

/-- The name of an anchor, if one stands here. -/
def anchor? : Reader (Option String) := do
  match ← peek with
  | .anchor name =>
    drop
    return some name
  | _ => return none

/-- The full name of a tag, if one stands here. -/
def tag? : Reader (Option String) := do
  match ← peek with
  | .tag t =>
    drop
    match t.handle with
    | none => return some t.suffix
    | some handle =>
      match (← get).handles.lookup handle with
      | some beginning => return some (beginning ++ t.suffix)
      | none => refuse
  | _ => return none

/-- Anchor and tag of a node, in either order. -/
def properties : Reader (Option String × Option String) := do
  let anchor ← anchor?
  let tag ← tag?
  match anchor with
  | some name => return (some name, tag)
  | none => return (← anchor?, tag)

/-- Fails if a name stands for a node already. -/
def checkFresh (anchor : Option String) : Reader Unit := do
  let known := (← get).anchors
  if anchor.any fun name => (known.lookup name).isSome then refuse

def bind (anchor : Option String) (meaning : Anchor) : Reader Unit := do
  match anchor with
  | some name => modify fun s => { s with anchors := (name, meaning) :: s.anchors }
  | none => return ()

def resolve (name : String) : Reader Node := do
  match (← get).anchors.lookup name with
  | some (.opened id) => return .back id
  | some (.complete node) => return node
  | none => refuse

/-- A container whose first token is at the place: its anchor stands for it while it is read. -/
def container (anchor : Option String) (items : Nat → Reader Node) : Reader Node := do
  let id := (← get).tokens.length
  bind anchor (.opened id)
  items id

/-- The tag of a node that is written as a full name, or the usual one. A mark alone is no tag. -/
def tagOr (usual : Tag) : Option String → Tag
  | none => usual
  | some name => if name = "!" then usual else Tag.ofName name

/-- The tag of a scalar: one that is plain, or tagged with a mark alone, gets it from its looks. -/
def scalarTag (plain : Bool) (text : String) (tag : Option String) : Tag :=
  match tag with
  | none => if plain then Tag.ofPlain text else .text
  | some name => if name = "!" then Tag.ofPlain text else Tag.ofName name

/-- The content of a node behind anchor and tag. `block` allows block collections, `flush` a block
sequence that is not indented. The number bounds the parts of a container. -/
def content (size : Nat) (node : Bool → Bool → Reader Node) (block flush : Bool)
    (anchor tag : Option String) : Reader Node := do
  let sequence (items : Reader (List Node)) : Reader Node :=
    container anchor fun id => return .sequence id (tagOr .sequence tag) (← items)
  let mapping (pairs : Reader (List (Node × Node))) : Reader Node :=
    container anchor fun id => return .mapping id (tagOr .mapping tag) (← pairs)
  let flowNode := node false false
  match ← peek with
  | .scalar text plain =>
    drop
    return .scalar (scalarTag plain text tag) text
  | .flowSequenceStart =>
    sequence do
      drop
      flowParts (flowItem flowNode) .flowSequenceEnd true size
  | .flowMappingStart =>
    mapping do
      drop
      flowParts (flowPair flowNode) .flowMappingEnd true size
  | t =>
    if flush && t = .blockEntry then sequence (flushItems (node true false) size)
    else if block && t = .blockSequenceStart then
      sequence do
        drop
        blockItems (node true false) size
    else if block && t = .blockMappingStart then
      mapping do
        drop
        blockPairs (node true true) size
    else if anchor.isSome || tag.isSome then return .scalar (scalarTag true "" tag) ""
    else refuse

/-- A node. The numbers bound the parts of a container and the nesting. -/
def node (size : Nat) : Nat → Bool → Bool → Reader Node
  | 0, _, _ => refuse
  | depth + 1, block, flush => do
    match ← peek with
    | .alias_ name =>
      drop
      resolve name
    | _ =>
      let (anchor, tag) ← properties
      checkFresh anchor
      let result ← content size (node size depth) block flush anchor tag
      bind anchor (.complete result)
      return result

/-- Drops the marks of ends of documents. The number bounds them. -/
def dropEnds : Nat → Reader Unit
  | 0 => refuse
  | bound + 1 => do
    if ← accept .documentEnd then dropEnds bound else return ()

/-- What the handles of tags stand for unless an instruction says otherwise. -/
def usualHandles : List (String × String) := [("!", "!"), ("!!", Tag.standardBeginning)]

/-- The instructions in front of a document. None may be given twice, and only the first version of
the format is known. -/
def directives (versioned : Bool) (handles : List (String × String)) : Nat → Reader Unit
  | 0 => refuse
  | bound + 1 => do
    match ← peek with
    | .version major =>
      if versioned || major ≠ 1 then refuse
      else
        drop
        directives true handles bound
    | .tagHandle handle beginning =>
      if (handles.lookup handle).isSome then refuse
      else
        drop
        directives versioned ((handle, beginning) :: handles) bound
    | .otherDirective =>
      drop
      directives versioned handles bound
    | _ => modify fun s => { s with handles := handles ++ usualHandles }

/-- The tokens that end a document without content. -/
def endsDocument : Token → Bool
  | .version _ | .tagHandle _ _ | .otherDirective => true
  | t => t == .documentStart || t == .documentEnd || t == .endOfText

/-- The document behind its instructions and the line that begins it. -/
def explicitDocument (size : Nat) : Reader Node := do
  directives false [] size
  expect .documentStart
  if endsDocument (← peek) then return empty else node size size true false

/-- The only document of a text, if there is one. -/
def document (size : Nat) : Reader (Option Node) := do
  let t ← peek
  let root ←
    if t = .endOfText then pure none
    else if endsDocument t && t ≠ .documentEnd then some <$> explicitDocument size
    else
      directives false [] 1
      some <$> node size size true false
  dropEnds size
  expect .endOfText
  return root

end Reader

/-- The root of the document of these tokens; none for a text without a document. -/
def ofTokens (tokens : List Token) : Except Stop (Option Node) :=
  (Reader.document (2 * tokens.length + 2)).run' { tokens }

end Node

/-- The root of the document of a text; none for a text without a document. -/
def Node.ofText (text : String) : Except Problem (Option Node) :=
  let (ts, problem) := tokens text
  match Node.ofTokens ts with
  | .ok root => .ok root
  | .error .malformed => .error .malformed
  | .error .cutOff => .error (problem.getD .malformed)

end RequestWriter.Yaml
