import RequestWriter.Value
import RequestWriter.Text.Hexadecimal

/-!
# Reading JSON

A strict reader of JSON texts. Blanks are space, tab, carriage return and newline; a string holds no
control character; a number has no leading zero and, with a fraction or an exponent, must be finite
as a double; a whole number has at most 4300 digits. An escape that names half of a surrogate pair
stands for no character, and a text with such an escape is refused. A repeated key keeps its first
place and takes its last value.

Each part of the grammar is a function from the text to the value of the part and the rest of the
text. The readers of containers take the reader of their items as an argument, so that the recursion
on the nesting is a recursion on a number.
-/

namespace RequestWriter.Json

def isSpace (c : Char) : Bool := c == ' ' || c == '\t' || c == '\n' || c == '\r'

def skipSpaces (cs : List Char) : List Char := cs.dropWhile isSpace

def maxNesting : Nat := 1000

/-- The most digits that a whole number may have. -/
def maxIntegerDigits : Nat := 4300

/-- The number that a list of decimal digits spells. -/
def natOfDigits (digits : List Char) : Nat :=
  digits.foldl (fun n c => 10 * n + (c.toNat - 48)) 0

/-- The digits at the front, and the rest. -/
def spanDigits (cs : List Char) : List Char × List Char :=
  (cs.takeWhile Char.isDigit, cs.dropWhile Char.isDigit)

/-- A point with at least one digit behind it; without one, no digits and the text itself. -/
def fractionPart (cs : List Char) : List Char × List Char :=
  match cs with
  | '.' :: rest => if (spanDigits rest).1.isEmpty then ([], cs) else spanDigits rest
  | _ => ([], cs)

/-- The sign of an exponent, and the rest. -/
def exponentSign : List Char → Bool × List Char
  | '-' :: rest => (true, rest)
  | '+' :: rest => (false, rest)
  | rest => (false, rest)

/-- An exponent with at least one digit, if there is one. -/
def exponentPart (cs : List Char) : Option Int × List Char :=
  match cs with
  | e :: rest =>
    if e = 'e' ∨ e = 'E' then
      let (negative, rest) := exponentSign rest
      let (digits, rest) := spanDigits rest
      if digits.isEmpty then (none, cs)
      else
        let size := Int.ofNat (natOfDigits digits)
        (some (if negative then -size else size), rest)
    else (none, cs)
  | [] => (none, cs)

/-- The whole part of a number: a lone zero, or digits that do not begin with zero. -/
def wholePart? : List Char → Option (List Char × List Char)
  | '0' :: rest => some (['0'], rest)
  | cs => if (spanDigits cs).1.isEmpty then none else some (spanDigits cs)

/-- The value of a number without a sign in front of its digits. -/
def numberValue? (negative : Bool) (whole fraction : List Char) (exponent : Option Int) :
    Option Value :=
  match fraction, exponent with
  | [], none =>
    if whole.length ≤ maxIntegerDigits then
      let size := Int.ofNat (natOfDigits whole)
      some (Value.int (if negative then -size else size))
    else none
  | _, _ =>
    let d := Double.ofDecimal negative (natOfDigits (whole ++ fraction))
      (exponent.getD 0 - fraction.length)
    if d.isFinite then some (.scalar (.float d)) else none

/-- The sign of a number, and the rest. -/
def numberSign : List Char → Bool × List Char
  | '-' :: rest => (true, rest)
  | rest => (false, rest)

def number? (cs : List Char) : Option (Value × List Char) :=
  let (negative, cs) := numberSign cs
  (wholePart? cs).bind fun (whole, rest) =>
    let (fraction, rest) := fractionPart rest
    let (exponent, rest) := exponentPart rest
    (numberValue? negative whole fraction exponent).map fun v => (v, rest)

/-- The code unit that four hexadecimal digits spell. -/
def unit? (a b c d : Char) : Option Nat := Text.hexNumber? 4 [a, b, c, d]

/-- The character of an escape of one letter. -/
def escapeValue? : Char → Option Char
  | '"' => some '"'
  | '\\' => some '\\'
  | '/' => some '/'
  | 'b' => some '\x08'
  | 'f' => some '\x0c'
  | 'n' => some '\n'
  | 'r' => some '\r'
  | 't' => some '\t'
  | _ => none

/-- Whether a code unit is the first half of a pair. -/
def isHighHalf (unit : Nat) : Bool := 0xD800 ≤ unit && unit < 0xDC00

/-- Whether a code unit is the second half of a pair. -/
def isLowHalf (unit : Nat) : Bool := 0xDC00 ≤ unit && unit < 0xE000

/-- The character of a pair of code units. -/
def pairChar (high low : Nat) : Char :=
  Char.ofNat (0x10000 + (high - 0xD800) * 0x400 + (low - 0xDC00))

/-- The characters of a string up to its closing quote, and the text behind the quote. The first
argument is a first half that waits for its second, which has to follow at once. -/
def stringBody? (high : Option Nat) : List Char → Option (List Char × List Char)
  | [] => none
  | '\\' :: 'u' :: a :: b :: c :: d :: rest =>
    match unit? a b c d, high with
    | none, _ => none
    | some low, some high =>
      if isLowHalf low then
        (stringBody? none rest).map fun (s, rest) => (pairChar high low :: s, rest)
      else none
    | some unit, none =>
      if isHighHalf unit then stringBody? (some unit) rest
      else if isLowHalf unit then none
      else (stringBody? none rest).map fun (s, rest) => (Char.ofNat unit :: s, rest)
  | '\\' :: c :: rest =>
    match escapeValue? c, high with
    | some x, none => (stringBody? none rest).map fun (s, rest) => (x :: s, rest)
    | _, _ => none
  | c :: rest =>
    if high.isSome || c.toNat < 0x20 then none
    else if c = '"' then some ([], rest)
    else (stringBody? none rest).map fun (s, rest) => (c :: s, rest)

/-- One or more items between commas, up to the closing mark. The first argument bounds the number
of items. -/
def sequence? {α : Type} (item? : List Char → Option (α × List Char)) (close : Char) :
    Nat → List Char → Option (List α × List Char)
  | 0, _ => none
  | bound + 1, cs =>
    (item? cs).bind fun (v, rest) =>
      match skipSpaces rest with
      | [] => none
      | c :: rest =>
        if c = close then some ([v], rest)
        else if c = ',' then
          (sequence? item? close bound (skipSpaces rest)).map fun (vs, rest) => (v :: vs, rest)
        else none

/-- A key, a colon and a value. -/
def member? (value? : List Char → Option (Value × List Char)) :
    List Char → Option ((Scalar × Value) × List Char)
  | '"' :: cs =>
    (stringBody? none cs).bind fun (key, rest) =>
      match skipSpaces rest with
      | ':' :: rest =>
        (value? (skipSpaces rest)).map fun (v, rest) => ((.text (String.ofList key), v), rest)
      | _ => none
  | _ => none

/-- The items of a list behind its opening bracket. -/
def listBody? (size : Nat) (value? : List Char → Option (Value × List Char))
    (cs : List Char) : Option (Value × List Char) :=
  match skipSpaces cs with
  | ']' :: rest => some (.list [], rest)
  | cs => (sequence? value? ']' size cs).map fun (vs, rest) => (.list vs, rest)

/-- The members of an object behind its opening brace. -/
def objectBody? (size : Nat) (value? : List Char → Option (Value × List Char))
    (cs : List Char) : Option (Value × List Char) :=
  match skipSpaces cs with
  | '\x7d' :: rest => some (.mapping [], rest)
  | cs =>
    (sequence? (member? value?) '\x7d' size cs).map
      fun (members, rest) => (.mapping (Entries.ofPairs members), rest)

/-- A value at the front of a text of at most `size` characters, with containers nested less deep
than the second number. -/
def value? (size : Nat) : Nat → List Char → Option (Value × List Char)
  | 0, _ => none
  | depth + 1, cs =>
    match cs with
    | '"' :: rest =>
      (stringBody? none rest).map fun (s, rest) => (Value.text (String.ofList s), rest)
    | '[' :: rest => listBody? size (value? size depth) rest
    | '\x7b' :: rest => objectBody? size (value? size depth) rest
    | 'n' :: 'u' :: 'l' :: 'l' :: rest => some (Value.null, rest)
    | 't' :: 'r' :: 'u' :: 'e' :: rest => some (Value.bool true, rest)
    | 'f' :: 'a' :: 'l' :: 's' :: 'e' :: rest => some (Value.bool false, rest)
    | cs => number? cs

/-- The value of a JSON text, with blanks allowed around it. -/
def read? (text : String) : Option Value :=
  let cs := skipSpaces text.toList
  (value? (cs.length + 1) maxNesting cs).bind fun (v, rest) =>
    if (skipSpaces rest).isEmpty then some v else none

end RequestWriter.Json
