import RequestWriter.Yaml.Token
import RequestWriter.Text.Basic
import RequestWriter.Calendar

/-!
# Tags

What kind of value a node stands for. A tag may be written; a plain scalar without one gets its tag
from its looks, by the rules of version 1.1 of the format: there are words for truth values, whole
numbers in four bases and in groups of sixty, and numbers with a point, whose exponent needs a sign.
-/

namespace RequestWriter.Yaml

inductive Tag where
  | null
  | bool
  | int
  | float
  | binary
  | timestamp
  | text
  | sequence
  | mapping
  /-- A key that stands for the entries of its value. -/
  | merge
  /-- A key that stands for the value itself. -/
  | default
  /-- A kind for which there are no values. -/
  | unknown
  deriving DecidableEq, Repr

namespace Tag

/-- The beginning that all known tags have. -/
def standardBeginning : String := "tag:yaml.org,2002:"

def ofName (name : String) : Tag :=
  let names : List (String × Tag) := [("null", .null), ("bool", .bool), ("int", .int),
    ("float", .float), ("binary", .binary), ("timestamp", .timestamp), ("str", .text),
    ("seq", .sequence), ("map", .mapping), ("merge", .merge), ("value", .default)]
  match names.find? fun (word, _) => standardBeginning ++ word == name with
  | some (_, tag) => tag
  | none => .unknown

/-- The words for truth values in small letters. -/
def truthWords : List (String × Bool) :=
  [("yes", true), ("no", false), ("true", true), ("false", false), ("on", true), ("off", false)]

/-- A word in small letters, with a capital in front, and in capitals. -/
def spellings (word : String) : List String := [word, word.capitalize, word.toUpper]

def isBool (s : String) : Bool := truthWords.any fun (word, _) => (spellings word).contains s

def isNull (s : String) : Bool := s == "" || s == "~" || (spellings "null").contains s

def dropSign : List Char → List Char
  | '+' :: rest => rest
  | '-' :: rest => rest
  | cs => cs

/-- A digit or an underscore. -/
def isSpacedDigit (c : Char) : Bool := c.isDigit || c == '_'

/-- A digit and then digits and underscores. -/
def isSpacedNumber : List Char → Bool
  | [] => false
  | c :: rest => c.isDigit && rest.all isSpacedDigit

/-- A group of a number in base sixty: at most 59, in one or two digits. -/
def isSixtieth : List Char → Bool
  | [a] => a.isDigit
  | [a, b] => '0' ≤ a && a ≤ '5' && b.isDigit
  | _ => false

/-- Whether a text is a whole number without its sign. -/
def isUnsigned : List Char → Bool
  | ['0'] => true
  | '0' :: 'b' :: rest => !rest.isEmpty && rest.all fun c => c == '0' || c == '1' || c == '_'
  | '0' :: 'x' :: rest =>
    !rest.isEmpty && rest.all fun c =>
      isSpacedDigit c || ('a' ≤ c && c ≤ 'f') || ('A' ≤ c && c ≤ 'F')
  | '0' :: rest => !rest.isEmpty && rest.all fun c => ('0' ≤ c && c ≤ '7') || c == '_'
  | cs =>
    match Text.split ':' cs with
    | [] => false
    | first :: groups => isSpacedNumber first && groups.all isSixtieth

def isInt (cs : List Char) : Bool := isUnsigned (dropSign cs)

/-- Whether a text is nothing, or an exponent with its sign. -/
def isExponent : List Char → Bool
  | [] => true
  | e :: sign :: digits =>
    (e == 'e' || e == 'E') && (sign == '+' || sign == '-') && !digits.isEmpty
      && digits.all Char.isDigit
  | _ => false

/-- Whether a text is digits and underscores and perhaps an exponent. -/
def isFraction (cs : List Char) : Bool := isExponent (cs.dropWhile isSpacedDigit)

/-- Whether a text is the whole part of a number in base sixty. -/
def isSixtyBase (cs : List Char) : Bool :=
  match Text.split ':' cs with
  | first :: group :: groups => isSpacedNumber first && (group :: groups).all isSixtieth
  | _ => false

/-- Whether a text is a number with a point. -/
def isFloat (cs : List Char) : Bool :=
  match Text.cut? '.' (dropSign cs) with
  | none => false
  | some ([], after) =>
    let word := String.ofList after
    (cs.head? == some '.' && isSpacedNumber (after.takeWhile isSpacedDigit) && isFraction after)
      || ["inf", "Inf", "INF"].contains word
      || (cs.head? == some '.' && ["nan", "NaN", "NAN"].contains word)
  | some (whole, after) =>
    (isSpacedNumber whole && isFraction after)
      || (isSixtyBase whole && after.all isSpacedDigit)

end Tag

end RequestWriter.Yaml
