import RequestWriter.Calendar
import RequestWriter.Value

/-!
# Moments

A day, or a day with a time of day, a fraction and an offset from universal time. A moment without
an offset belongs to no place.
-/

namespace RequestWriter.Yaml.Moment

/-- The numbers of a moment as they are written. -/
structure Parts where
  year : Nat
  month : Nat
  day : Nat
  /-- Hour, minute, second and microsecond. -/
  time : Option (Nat × Nat × Nat × Nat)
  /-- Minutes ahead of universal time. -/
  offset : Option Int
  deriving DecidableEq, Repr

def number (digits : List Char) : Nat :=
  digits.foldl (fun n d => 10 * n + (d.toNat - 48)) 0

/-- A number of `least` to `most` digits at the front, as many as there are, and the rest. -/
def digits? (least most : Nat) (cs : List Char) : Option (Nat × List Char) :=
  let taken := (cs.take most).takeWhile Char.isDigit
  if least ≤ taken.length then some (number taken, cs.drop taken.length) else none

/-- The rest behind a character that has to be there. -/
def expect (x : Char) : List Char → Option (List Char)
  | c :: rest => if c = x then some rest else none
  | [] => none

def isBlank (c : Char) : Bool := c == ' ' || c == '\t'

/-- The rest behind what stands between day and time: a letter, or blanks. -/
def separator? : List Char → Option (List Char)
  | 'T' :: rest => some rest
  | 't' :: rest => some rest
  | c :: rest => if isBlank c then some (rest.dropWhile isBlank) else none
  | [] => none

/-- The first six digits of a fraction as millionths. -/
def millionths (digits : List Char) : Nat :=
  number ((digits ++ List.replicate 6 '0').take 6)

/-- A fraction behind a point, zero if there is none, and the rest. -/
def fraction : List Char → Nat × List Char
  | '.' :: rest => (millionths (rest.takeWhile Char.isDigit), rest.dropWhile Char.isDigit)
  | cs => (0, cs)

/-- The minutes of an offset behind its sign, up to the end. -/
def offsetSize? (cs : List Char) : Option Nat := do
  let (hours, rest) ← digits? 1 2 cs
  match rest with
  | [] => return 60 * hours
  | _ =>
    let rest ← expect ':' rest
    let (minutes, rest) ← digits? 2 2 rest
    if rest.isEmpty then return 60 * hours + minutes else none

/-- The offset at the end, after blanks. -/
def offset? (cs : List Char) : Option (Option Int) :=
  match cs.dropWhile isBlank with
  | [] => if cs.isEmpty then some none else none
  | ['Z'] => some (some 0)
  | '+' :: rest => (offsetSize? rest).map fun n => some (Int.ofNat n)
  | '-' :: rest => (offsetSize? rest).map fun n => some (-Int.ofNat n)
  | _ => none

def parts? (cs : List Char) : Option Parts := do
  let (year, rest) ← digits? 4 4 cs
  let rest ← expect '-' rest
  let (month, rest) ← digits? 1 2 rest
  let rest ← expect '-' rest
  let (day, rest) ← digits? 1 2 rest
  match rest with
  | [] => return ⟨year, month, day, none, none⟩
  | _ =>
    let rest ← separator? rest
    let (hour, rest) ← digits? 1 2 rest
    let rest ← expect ':' rest
    let (minute, rest) ← digits? 2 2 rest
    let rest ← expect ':' rest
    let (second, rest) ← digits? 2 2 rest
    let (microsecond, rest) := fraction rest
    let offset ← offset? rest
    return ⟨year, month, day, some (hour, minute, second, microsecond), offset⟩

/-- The scalar of a moment, if calendar and clock have it. -/
def Parts.scalar? (p : Parts) : Option Scalar := do
  let date ← Date.of? p.year p.month p.day
  match p.time with
  | none => return .date date
  | some (hour, minute, second, microsecond) =>
    let t ← Timestamp.of? date hour minute second microsecond p.offset
    return .timestamp t

/-- Whether a text without a tag is a moment: a day alone has two digits for month and day. -/
def isMoment (cs : List Char) : Bool :=
  match parts? cs with
  | some p => p.time.isSome || cs.length == 10
  | none => false

end RequestWriter.Yaml.Moment
