import RequestWriter.Fault
import RequestWriter.Entries

/-!
# File trees

Directories and files by their places below the root. A tree is seen from one of its directories,
its home, which is there as long as the tree is. A walk goes part by part: every part is looked up
in a directory, so a walk over something that is not there, or that is a file, fails. The last part
of a walk need not be there; whoever asks for a file asks for it to be.
-/

namespace RequestWriter

abbrev Location := List String

/-- What is at a place. -/
inductive FileNode where
  | directory
  | file (content : List UInt8)
  deriving DecidableEq, Repr

/-- The directories and files below the root. -/
structure FileTree where
  nodes : List (Location × FileNode)
  /-- The place from which the tree is seen. It is a directory, like every place above it. -/
  home : Location
  deriving DecidableEq, Repr

namespace FileTree

/-- What is at a place, if anything is. The home and the places above it are always there. -/
def node? (t : FileTree) (place : Location) : Option FileNode :=
  if place.isPrefixOf t.home then some .directory else Entries.get? place t.nodes

def isDirectory (t : FileTree) (place : Location) : Bool := t.node? place == some .directory

/-- The place that one part leads to from a place, which has to be a directory. -/
def step (t : FileTree) (place : Location) (part : String) : Except FileFault Location :=
  match t.node? place with
  | none => .error .notFound
  | some (.file _) => .error .notDirectory
  | some .directory =>
    if part = "" ∨ part = "." then .ok place
    else if part = ".." then .ok place.dropLast
    else .ok (place ++ [part])

def walk (t : FileTree) (start : Location) (parts : List String) : Except FileFault Location :=
  parts.foldlM t.step start

/-- What is at the end of a walk. -/
def find (t : FileTree) (start : Location) (parts : List String) : Except FileFault FileNode := do
  let place ← t.walk start parts
  match t.node? place with
  | some node => return node
  | none => .error .notFound

/-- The content of the file at the end of a walk. -/
def read (t : FileTree) (start : Location) (parts : List String) :
    Except FileFault (List UInt8) := do
  match ← t.find start parts with
  | .file content => return content
  | .directory => .error .isDirectory

def put (t : FileTree) (place : Location) (node : FileNode) : FileTree :=
  { t with nodes := Entries.put place node t.nodes }

/-- The tree with a file at the end of a walk, in a directory that is there. -/
def write (t : FileTree) (start : Location) (parts : List String) (content : List UInt8) :
    Except FileFault FileTree := do
  let place ← t.walk start parts
  match t.node? place with
  | some .directory => .error .isDirectory
  | _ => return t.put place (.file content)

/-- The tree with a new directory at the end of a walk. -/
def makeDirectory (t : FileTree) (start : Location) (parts : List String) :
    Except FileFault FileTree := do
  let place ← t.walk start parts
  match t.node? place with
  | some _ => .error .exists
  | none => return t.put place .directory

/-- The tree with a directory at the end of a walk; one that is there already will do. -/
def ensureDirectory (t : FileTree) (start : Location) (parts : List String) :
    Except FileFault FileTree :=
  match t.makeDirectory start parts with
  | .ok t => .ok t
  | .error .notFound => .error .notFound
  | .error fault =>
    match t.walk start parts with
    | .ok place => if t.isDirectory place then .ok t else .error fault
    | .error _ => .error fault

/-- The tree with a directory at the end of a walk and at every part of the way. The parts are given
the last one first. -/
def ensureDirectories (t : FileTree) (start : Location) : List String → Except FileFault FileTree
  | [] => t.ensureDirectory start []
  | last :: before =>
    match t.ensureDirectory start (last :: before).reverse with
    | .error .notFound => do
      let t ← t.ensureDirectories start before
      t.ensureDirectory start (last :: before).reverse
    | outcome => outcome

def files (t : FileTree) : List (Location × List UInt8) :=
  t.nodes.filterMap fun (place, node) =>
    match node with
    | .file content => some (place, content)
    | .directory => none

end FileTree

end RequestWriter
