import RequestWriter.Value.Display
import RequestWriter.Fault

/-!
# Writing JSON

Two printers over the same rule for strings. The compact one leaves out every blank and keeps
characters beyond ASCII; it writes the body that is sent. The indented one writes one item per line
and only ASCII; it shows examples. A value that is no JSON value (a day, a byte string) is written
as the string of its display form.
-/

namespace RequestWriter.Json

/-- An escape by code unit. -/
def unitEscape (unit : Nat) : List Char := '\\' :: 'u' :: Text.hexDigits 4 unit

/-- A character beyond ASCII by its one or two code units. -/
def wideEscape (c : Char) : List Char :=
  if c.toNat < 0x10000 then unitEscape c.toNat
  else
    unitEscape (0xD800 + (c.toNat - 0x10000) / 0x400)
      ++ unitEscape (0xDC00 + (c.toNat - 0x10000) % 0x400)

/-- A character inside a string. With `asciiOnly` everything but the printable characters of ASCII
is escaped, else only what a string must not hold. -/
def stringChar (asciiOnly : Bool) (c : Char) : List Char :=
  if c = '"' then ['\\', '"']
  else if c = '\\' then ['\\', '\\']
  else if c = '\n' then ['\\', 'n']
  else if c = '\r' then ['\\', 'r']
  else if c = '\t' then ['\\', 't']
  else if c = '\x08' then ['\\', 'b']
  else if c = '\x0c' then ['\\', 'f']
  else if c.toNat < 0x20 then unitEscape c.toNat
  else if asciiOnly ∧ 0x7F ≤ c.toNat then wideEscape c
  else [c]

def string (asciiOnly : Bool) (s : String) : String :=
  String.ofList ('"' :: s.toList.flatMap (stringChar asciiOnly) ++ ['"'])

def scalar (asciiOnly : Bool) : Scalar → String
  | .null => "null"
  | .bool b => if b then "true" else "false"
  | .int i => toString i
  | .float d => Decimal.sourceNotation.write d
  | .text s => string asciiOnly s
  | s => string asciiOnly s.display

/-- The key of a member: a key that is no text is written as the text of its scalar. -/
def key (asciiOnly : Bool) : Scalar → String
  | .text s => string asciiOnly s
  | .float d => string asciiOnly (Decimal.sourceNotation.write d)
  | s => string asciiOnly (scalar asciiOnly s)

mutual

def compact : Value → String
  | .scalar s => scalar false s
  | .list items => "[" ++ Text.join "," (compactItems items) ++ "]"
  | .mapping entries => "\x7b" ++ Text.join "," (compactMembers entries) ++ "\x7d"
  | .ref _ => "null"

def compactItems : List Value → List String
  | [] => []
  | v :: rest => compact v :: compactItems rest

def compactMembers : List (Scalar × Value) → List String
  | [] => []
  | (k, v) :: rest => (key false k ++ ":" ++ compact v) :: compactMembers rest

end

/-- A new line and two blanks per level. -/
def newline (level : Nat) : String :=
  String.ofList ('\n' :: List.replicate (2 * level) ' ')

/-- Parts between brackets, one a line. -/
def block (opening closing : String) (level : Nat) (parts : List String) : String :=
  if parts.isEmpty then opening ++ closing
  else
    opening ++ newline (level + 1) ++ Text.join ("," ++ newline (level + 1)) parts
      ++ newline level ++ closing

mutual

/-- A value whose containers are blocks, at a level of indentation. -/
def indentedAt (level : Nat) : Value → String
  | .scalar s => scalar true s
  | .list items => block "[" "]" level (indentedItems (level + 1) items)
  | .mapping entries => block "\x7b" "\x7d" level (indentedMembers (level + 1) entries)
  | .ref _ => "null"

/-- The items of a list, each at the same level. -/
def indentedItems (level : Nat) : List Value → List String
  | [] => []
  | v :: rest => indentedAt level v :: indentedItems level rest

/-- The members of an object, each at the same level. -/
def indentedMembers (level : Nat) : List (Scalar × Value) → List String
  | [] => []
  | (k, v) :: rest =>
    (key true k ++ ": " ++ indentedAt level v) :: indentedMembers level rest

end

/-- A value with two blanks of indentation per level. -/
def indented (v : Value) : String := indentedAt 0 v

/-- Whether a whole number has so many digits that no printer writes it. -/
def isTooLong (i : Int) : Bool := tenTo 4300 ≤ i.natAbs

def scalarFault? : Scalar → Option Fault
  | .int i => if isTooLong i then some .badValue else none
  | _ => none

/-- Why a scalar cannot be the key of a member. -/
def keyFault? : Scalar → Option Fault
  | .bytes _ | .date _ | .timestamp _ => some .wrongKind
  | s => scalarFault? s

mutual

/-- Why a value cannot be written, found in the order of writing: a key that has no JSON form, a
number that is too long, or what `ofRef` finds behind a reference. -/
def faultWith (ofRef : Nat → Option Fault) : Value → Option Fault
  | .scalar s => scalarFault? s
  | .list items => itemsFault? ofRef items
  | .mapping entries => membersFault? ofRef entries
  | .ref i => ofRef i

/-- The first fault among the items of a list. -/
def itemsFault? (ofRef : Nat → Option Fault) : List Value → Option Fault
  | [] => none
  | v :: rest => (faultWith ofRef v).or (itemsFault? ofRef rest)

/-- The first fault among the members of an object. -/
def membersFault? (ofRef : Nat → Option Fault) : List (Scalar × Value) → Option Fault
  | [] => none
  | (k, v) :: rest =>
    ((keyFault? k).or (faultWith ofRef v)).or (membersFault? ofRef rest)

end

/-- The fault behind a reference, through at most so many references on one path. A path through
more references than there are containers has come back to a container that is still open. -/
def refFault? (g : Graph) : Nat → Nat → Option Fault
  | 0, _ => some .badValue
  | n + 1, i => faultWith (refFault? g n) ((g.lookup i).getD .null)

/-- Why a value cannot be written, if it cannot. -/
def fault? (g : Graph) (v : Value) : Option Fault := faultWith (refFault? g g.length) v

end RequestWriter.Json
