import RequestWriter.Files.Tree
import RequestWriter.Files.Path
import RequestWriter.Text.Utf8

/-!
# Workspaces

A file tree seen from a working directory, from which relative paths start, and the variables that
the environment sets. Files are texts in UTF-8; every kind of line end counts as a newline when a
text is read, and none is changed when one is written. A path with a null character is no name for
the system, so it is refused before anything is looked up.
-/

namespace RequestWriter

structure Workspace where
  tree : FileTree
  /-- The full name of the working directory. -/
  directoryName : String
  /-- The variables of the environment. -/
  settings : List (String × String)
  deriving DecidableEq, Repr

namespace Workspace

def directory (ws : Workspace) : Location := ws.tree.home

/-- The value of a variable that is set and not empty. -/
def setting? (ws : Workspace) (name : String) : Option String :=
  (ws.settings.lookup name).filter (· != "")

def start (ws : Workspace) (p : Path) : Location := if p.root = "" then ws.directory else []

/-- Whether something is at the place that a text names as it is written: nothing is dropped, so a
slash at the end asks for a directory. -/
def hasRaw (ws : Workspace) (s : String) : Bool :=
  if s = "" then false
  else
    let start := if s.startsWith "/" then [] else ws.directory
    (ws.tree.find start (Path.segments s)).toBool

/-- Whether the system takes parts for a name. -/
def namesPlace (parts : List String) : Bool := parts.all fun part => !part.toList.contains '\x00'

/-- The text of a file. `announce` is how the caller reports a file that cannot be used. -/
def readText (ws : Workspace) (start : Location) (parts : List String)
    (announce : FileFault → Fault) : Except Fault String :=
  if namesPlace parts then
    match ws.tree.read start parts with
    | .error reason => .error (announce reason)
    | .ok content =>
      match Text.utf8Chars? content with
      | some cs => .ok (String.ofList (Text.unifyLineEnds cs))
      | none => .error .notUtf8
  else .error .badValue

/-- The workspace with its tree changed at the end of a path. -/
def change (ws : Workspace) (p : Path) (after : Except FileFault FileTree) :
    Except Fault Workspace :=
  if namesPlace p.parts then
    match after with
    | .ok tree => .ok { ws with tree }
    | .error reason => .error (.file reason)
  else .error .badValue

def writeText (ws : Workspace) (p : Path) (text : String) : Except Fault Workspace :=
  ws.change p (ws.tree.write (ws.start p) p.parts (Text.utf8Bytes text.toList))

/-- The workspace with a directory and the directories above it. -/
def ensureDirectories (ws : Workspace) (p : Path) : Except Fault Workspace :=
  ws.change p (ws.tree.ensureDirectories (ws.start p) p.parts.reverse)

end Workspace

end RequestWriter
