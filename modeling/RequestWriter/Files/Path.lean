import RequestWriter.Text.Basic

/-!
# Paths

The name of a file as a user writes it. Empty parts and single dots are dropped, double dots stay,
and a path without parts is shown as a single dot. The suffix of a name begins at its last dot, but
a dot at either end of the name begins none.
-/

namespace RequestWriter

structure Path where
  /-- The slashes in front: none for a path that starts at the working directory. -/
  root : String
  parts : List String
  deriving DecidableEq, Repr

namespace Path

/-- The parts of a text between its slashes, as they are written. -/
def segments (s : String) : List String := (Text.split '/' s.toList).map String.ofList

/-- The slashes in front of a path. Exactly two of them are kept, any other number counts as one. -/
def rootOf (cs : List Char) : String :=
  match cs with
  | '/' :: '/' :: '/' :: _ => "/"
  | '/' :: '/' :: _ => "//"
  | '/' :: _ => "/"
  | _ => ""

def ofText (s : String) : Path :=
  ⟨rootOf s.toList, (segments s).filter fun part => part != "" && part != "."⟩

def text (p : Path) : String :=
  if p.root = "" ∧ p.parts = [] then "." else p.root ++ Text.join "/" p.parts

/-- The last part, empty if there is none. -/
def name (p : Path) : String := p.parts.getLast?.getD ""

/-- The suffix of a name, empty if it has none. -/
def suffixOf (name : String) : String :=
  let cs := name.toList
  let behind := cs.reverse.takeWhile (· != '.')
  if behind.isEmpty || cs.length ≤ behind.length + 1 then ""
  else String.ofList ('.' :: behind.reverse)

/-- The suffix of the last part, empty if it has none. -/
def suffix (p : Path) : String := suffixOf p.name

def parent (p : Path) : Path := { p with parts := p.parts.dropLast }

/-- The path with a suffix behind its name, if it has a name. -/
def addSuffix? (suffix : String) (p : Path) : Option Path :=
  if p.parts.isEmpty then none
  else some { p with parts := p.parts.dropLast ++ [p.name ++ suffix] }

end Path

end RequestWriter
