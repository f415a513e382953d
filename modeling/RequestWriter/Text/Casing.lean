import RequestWriter.Text.Blank
import RequestWriter.Text.Casing.Table

/-!
# Upper and lower case

Full case mapping: one character may give several, and a capital sigma gives the final form of the
small letter at the end of a word. Characters of ASCII are mapped by rule, all others by the tables.
-/

namespace RequestWriter.Text

open Casing

/-- The simple mapping of a code by the first run that holds it. -/
def Casing.shift (runs : List Run) (code : Nat) : Nat :=
  match runs.find? fun (first, last, step, _) =>
      decide (first ≤ code ∧ code ≤ last ∧ (code - first) % step = 0) with
  | some (_, _, _, by_) => (Int.ofNat code + by_).toNat
  | none => code

/-- The mapping of a character beyond ASCII: the full one if there is one, else the simple one. -/
def Casing.map (full : List (Nat × List Nat)) (runs : List Run) (c : Char) : List Char :=
  match full.lookup c.toNat with
  | some codes => codes.map Char.ofNat
  | none => [Char.ofNat (shift runs c.toNat)]

def upperChar (c : Char) : List Char :=
  if c.toNat < 0x80 then [c.toUpper] else Casing.map upperFull upperRuns c

def upper (s : String) : String := String.ofList (s.toList.flatMap upperChar)

/-- Whether case rules look through a character when they search for a neighbouring letter. -/
def isCaseIgnorable (c : Char) : Bool :=
  if c.toNat < 0x80 then [0x27, 0x2E, 0x3A, 0x5E, 0x60].contains c.toNat
  else inRanges ignorableRanges c.toNat

def isCased (c : Char) : Bool :=
  if c.toNat < 0x80 then c.isAlpha else inRanges casedRanges c.toNat

/-- Whether the nearest character that case rules do not look through is a cased letter. -/
def nextIsCased : List Char → Bool
  | [] => false
  | c :: rest => if isCaseIgnorable c then nextIsCased rest else isCased c

/-- The lower case form of a character that stands between `before`, nearest first, and `after`. -/
def lowerChar (before after : List Char) (c : Char) : List Char :=
  if c.toNat < 0x80 then [c.toLower]
  else if c = 'Σ' then [if nextIsCased before && !nextIsCased after then 'ς' else 'σ']
  else Casing.map lowerFull lowerRuns c

/-- The lower case form of the characters that follow `before`. -/
def lowerFrom (before : List Char) : List Char → List Char
  | [] => []
  | c :: rest => lowerChar before rest c ++ lowerFrom (c :: before) rest

def lower (s : String) : String := String.ofList (lowerFrom [] s.toList)

/-- The text with its first letter large and the others small. The rule is that of ASCII: it is
used on the names of the standard methods only. -/
def capitalize (s : String) : String :=
  match s.toList with
  | [] => ""
  | c :: rest => String.ofList (c.toUpper :: rest.map Char.toLower)

end RequestWriter.Text
