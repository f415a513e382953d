import RequestWriter.Yaml.Node
import RequestWriter.Yaml.Loader

/-!
# The value of a document

The library with which the program is built. A tree of nodes becomes a value. Entries that a mapping
takes over from others stand in front of its own, which win; of several sources the first one wins.
A container is made when the container around it is filled, so mistakes are found level by level,
from the root.

There are no sets, no lists of pairs and no scalars that are written as mappings here: a document
with one of them is refused. The code of a lone half stands for a null character.
-/

namespace RequestWriter.Yaml

namespace Node

/-- The containers of a document by their numbers. -/
abbrev Index := List (Nat × Node)

mutual

/-- The containers of a node by their numbers. -/
def index : Node → Index
  | .scalar _ _ | .back _ => []
  | .sequence id tag items => (id, .sequence id tag items) :: indexItems items
  | .mapping id tag pairs => (id, .mapping id tag pairs) :: indexPairs pairs

def indexItems : List Node → Index
  | [] => []
  | node :: rest => index node ++ indexItems rest

def indexPairs : List (Node × Node) → Index
  | [] => []
  | (key, value) :: rest => index key ++ index value ++ indexPairs rest

end

/-- The container that a way back leads to. -/
def follow (containers : Index) : Node → Node
  | .back id => (containers.lookup id).getD empty
  | node => node

/-- Whether a key asks for the entries of its value. -/
def isMerge : Node → Bool
  | .scalar .merge _ => true
  | _ => false

/-- A key as it counts in a mapping: the mark of a default value is a text there. -/
def asKey : Node → Node
  | .scalar .default s => .scalar .text s
  | node => node

/-- The pairs of a source that has to be a mapping. -/
def mergePairs? (containers : Index)
    (flat : List (Node × Node) → Option (List (Node × Node))) (source : Node) :
    Option (List (Node × Node)) :=
  match follow containers source with
  | .mapping _ _ pairs => flat pairs
  | _ => none

/-- The pairs that a mapping takes over from the value of a merge key: a mapping, or a sequence of
mappings of which the first one wins. -/
def takenOver? (containers : Index)
    (flat : List (Node × Node) → Option (List (Node × Node))) (source : Node) :
    Option (List (Node × Node)) :=
  match follow containers source with
  | .mapping _ _ pairs => flat pairs
  | .sequence _ _ items =>
    (items.mapM (mergePairs? containers flat)).map fun parts => parts.reverse.flatten
  | _ => none

/-- The pairs of a mapping with those that it takes over in front, if all sources are mappings. The
number bounds the chain of sources. -/
def flatPairs? (containers : Index) : Nat → List (Node × Node) → Option (List (Node × Node))
  | 0, pairs => some (pairs.filter fun (k, _) => !isMerge k)
  | bound + 1, pairs => do
    let (merges, own) := pairs.partition fun (k, _) => isMerge k
    let taken ← merges.mapM fun (_, v) => takenOver? containers (flatPairs? containers bound) v
    return taken.flatten ++ own.map fun (k, v) => (asKey k, v)

/-- The pairs of a mapping with those that it takes over. -/
def pairsOf? (containers : Index) (pairs : List (Node × Node)) : Option (List (Node × Node)) :=
  flatPairs? containers (containers.length + 1) pairs

/-- Why a node cannot be made. The content of a container is looked at later. -/
def ownProblem? : Node → Option Problem
  | .scalar tag text =>
    match tag with
    | .sequence | .mapping => none
    | tag =>
      match tag.value text with
      | .ok _ => none
      | .error problem => some problem
  | .sequence _ tag _ | .mapping _ tag _ =>
    if tag = .sequence || tag = .mapping then none else some .malformed
  | .back _ => none

/-- Why a key and its value cannot be made. Only a scalar can be a key. -/
def pairProblem? (pair : Node × Node) : Option Problem :=
  match pair.1 with
  | .scalar .sequence _ | .scalar .mapping _ => some .malformed
  | .scalar _ _ => (ownProblem? pair.1).or (ownProblem? pair.2)
  | _ => some .malformed

def innerProblem? (containers : Index) : Node → Option Problem
  | .scalar tag _ => if tag = .sequence || tag = .mapping then some .malformed else none
  | .sequence _ tag items =>
    if tag = .sequence then items.findSome? ownProblem? else some .malformed
  | .mapping _ tag pairs =>
    if tag = .mapping then
      match pairsOf? containers pairs with
      | some pairs => pairs.findSome? pairProblem?
      | none => some .malformed
    else some .malformed
  | .back _ => none

/-- The nodes that are filled after a container. -/
def children (containers : Index) : Node → List Node
  | .sequence _ _ items => items.map (follow containers)
  | .mapping _ _ pairs =>
    ((pairsOf? containers pairs).getD []).map fun (_, v) => follow containers v
  | _ => []

def id? : Node → Option Nat
  | .sequence id _ _ | .mapping id _ _ => some id
  | _ => none

/-- The nodes that were not filled before, each once, with the numbers of all that were. -/
def unfilled (filled : List Nat) : List Node → List Node × List Nat
  | [] => ([], filled)
  | node :: rest =>
    match node.id? with
    | none =>
      let (others, filled) := unfilled filled rest
      (node :: others, filled)
    | some id =>
      if filled.contains id then unfilled filled rest
      else
        let (others, filled) := unfilled (id :: filled) rest
        (node :: others, filled)

/-- The first problem, level by level. The number bounds the levels. -/
def levelProblem? (containers : Index) : Nat → List Nat → List Node → Option Problem
  | 0, _, _ => none
  | bound + 1, filled, level =>
    let (level, filled) := unfilled filled level
    if level.isEmpty then none
    else
      (level.findSome? (innerProblem? containers)).or
        (levelProblem? containers bound filled (level.flatMap (children containers)))

def problem? (containers : Index) (root : Node) : Option Problem :=
  (ownProblem? root).or (levelProblem? containers (containers.length + 2) [] [root])

def scalarValue (tag : Tag) (text : String) : Scalar := (tag.value text).toOption.getD .null

/-- The key that a node without problems is. -/
def keyValue : Node → Scalar
  | .scalar tag text => scalarValue tag text
  | _ => .null

/-- The value of a node without problems. `around` holds the numbers of the containers around the
place; one of them inside itself is a reference. The number bounds the nesting. -/
def value (containers : Index) : Nat → List Nat → Node → Value
  | 0, _, _ => Value.null
  | bound + 1, around, node =>
    match node with
    | .scalar tag text => .scalar (scalarValue tag text)
    | .sequence id _ items =>
      if around.contains id then .ref id
      else .list (items.map (value containers bound (id :: around)))
    | .mapping id _ pairs =>
      if around.contains id then .ref id
      else
        let pairs := (pairsOf? containers pairs).getD []
        .mapping (Entries.ofPairs (pairs.map fun (k, v) =>
          (keyValue k, value containers bound (id :: around) v)))
    | .back id =>
      if around.contains id then .ref id
      else value containers bound around (follow containers node)

/-- The bound on the nesting of values: every container may be reached by a way back. -/
def valueBound (containers : Index) : Nat := 2 * containers.length + 2

/-- The value of a container on its own. -/
def valueAlone (containers : Index) (node : Node) : Value :=
  value containers (valueBound containers) [] node

mutual

def hasRef : Value → Bool
  | .scalar _ => false
  | .ref _ => true
  | .list items => anyRef items
  | .mapping entries => anyEntryRef entries

/-- Whether one of several values holds a reference. -/
def anyRef : List Value → Bool
  | [] => false
  | v :: rest => hasRef v || anyRef rest

/-- Whether the value of an entry holds a reference. -/
def anyEntryRef : List (Scalar × Value) → Bool
  | [] => false
  | (_, v) :: rest => hasRef v || anyEntryRef rest

end

/-- The document of a tree without problems. Without references it needs no graph. -/
def toDocument (containers : Index) (root : Node) : Document :=
  let v := valueAlone containers root
  if hasRef v then
    ⟨containers.map fun (id, node) => (id, valueAlone containers node), v⟩
  else ⟨[], v⟩

end Node

/-- How a problem is reported: a scalar that spells no value is no mistake in the form of a text. -/
def Problem.refusal : Problem → Refusal
  | .malformed => .malformed
  | .badScalar => .broken .badValue rfl
  | .unknownWord => .broken .missingKey rfl
  | .emptyNumber => .broken .outOfRange rfl
  | .noMoment => .broken .lacksOperation rfl
  | .hugeCode => .broken .tooLarge rfl

/-- Whether a character may stand in a text. -/
def isAllowed (c : Char) : Bool :=
  let n := c.toNat
  n == 0x09 || n == 0x0A || n == 0x0D || n == 0x85 || (0x20 ≤ n && n ≤ 0x7E)
    || (0xA0 ≤ n && n ≤ 0xD7FF) || (0xE000 ≤ n && n ≤ 0xFFFD) || 0x10000 ≤ n

/-- The value of a text. A text without a document is null. -/
def load (text : String) : Except Problem Document :=
  if !text.toList.all isAllowed then .error .malformed
  else
    match Node.ofText text with
    | .error problem => .error problem
    | .ok none => .ok ⟨[], Value.null⟩
    | .ok (some root) =>
      let containers := root.index
      match root.problem? containers with
      | some problem => .error problem
      | none => .ok (root.toDocument containers)

instance : Loader where
  load text := (load text).mapError Problem.refusal

end RequestWriter.Yaml
