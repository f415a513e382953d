import RequestWriter.Yaml.Tag
import RequestWriter.Yaml.Cursor
import RequestWriter.Double
import RequestWriter.Text.Blank
import RequestWriter.Text.Hexadecimal

/-!
# Numbers of scalars

The number that the text of a scalar spells once it is known to be one. Underscores between digits
mean nothing. A whole number is in base two, eight, ten or sixteen by its first characters; with
colons, whole numbers and numbers with a point are in groups of sixty. A text that was tagged as a
number by hand need not look like one: then it has to be a number with blanks around it.
-/

namespace RequestWriter.Yaml.Number

/-- The most decimal digits that a whole number may have. -/
def maxDigits : Nat := 4300

/-- Whether the first characters after a zero name the base. -/
def isBasePrefix (base : Nat) (c : Char) : Bool :=
  match base with
  | 2 => c == 'b' || c == 'B'
  | 8 => c == 'o' || c == 'O'
  | 16 => c == 'x' || c == 'X'
  | _ => false

/-- The digits behind the characters that name the base, if they are there. -/
def dropBasePrefix (base : Nat) (cs : List Char) : List Char :=
  match cs with
  | '0' :: c :: rest => if isBasePrefix base c then rest else cs
  | _ => cs

/-- The number that digits of a base spell. There has to be a digit. -/
def digits? (base : Nat) (cs : List Char) : Option Nat :=
  if cs.isEmpty then none
  else
    cs.foldlM (fun n c => (Text.hexValue? c).bind fun d =>
      if d < base then some (base * n + d) else none) 0

/-- The whole number that digits of a base spell. Only decimal ones are limited. -/
def natural? (base : Nat) (cs : List Char) : Option Nat :=
  if base == 10 && maxDigits < cs.length then none else digits? base cs

/-- A text without the blanks at its ends. -/
def trim (cs : List Char) : List Char := (Text.strip (String.ofList cs)).toList

/-- The whole number that a text spells in a base, with blanks around it and a sign. -/
def whole? (base : Nat) (cs : List Char) : Option Int :=
  let cs := trim cs
  (natural? base (dropBasePrefix base (Tag.dropSign cs))).map fun n =>
    if cs.head? == some '-' then -Int.ofNat n else Int.ofNat n

def dropUnderscores (s : String) : List Char := s.toList.filter (· != '_')

def orBad {α : Type} (x : Option α) : Except Problem α :=
  match x with
  | some a => .ok a
  | none => .error .badScalar

/-- The value of a whole number behind its sign. -/
def unsigned (cs : List Char) : Except Problem Int :=
  match cs with
  | [] => .error .emptyNumber
  | ['0'] => .ok 0
  | '0' :: 'b' :: rest => orBad (whole? 2 rest)
  | '0' :: 'x' :: rest => orBad (whole? 16 rest)
  | '0' :: _ => orBad (whole? 8 cs)
  | _ =>
    match Text.split ':' cs with
    | [_] => orBad (whole? 10 cs)
    | groups => orBad ((groups.mapM (whole? 10)).map fun ns => ns.foldl (fun n d => 60 * n + d) 0)

def int (s : String) : Except Problem Int :=
  let cs := dropUnderscores s
  match cs with
  | [] => .error .emptyNumber
  | c :: _ => (fun i => if c = '-' then -i else i) <$> unsigned (Tag.dropSign cs)

/-- The digits at the front as they are, and the rest. -/
def spanDigits (cs : List Char) : List Char × List Char :=
  (cs.takeWhile Char.isDigit, cs.dropWhile Char.isDigit)

/-- The exponent at the end of a number; zero if there is none. It may have any number of digits. -/
def exponent? : List Char → Option Int
  | [] => some 0
  | c :: rest =>
    if c = 'e' || c = 'E' then
      (digits? 10 (Tag.dropSign rest)).map fun n =>
        if rest.head? == some '-' then -Int.ofNat n else Int.ofNat n
    else none

/-- The number with a point that digits spell. -/
def pointed? (negative : Bool) (cs : List Char) : Option Double :=
  let (whole, rest) := spanDigits cs
  let (fraction, rest) := match rest with
    | '.' :: rest => spanDigits rest
    | _ => ([], rest)
  if whole.isEmpty && fraction.isEmpty then none
  else
    (exponent? rest).map fun e =>
      let digits := (whole ++ fraction).foldl (fun n d => 10 * n + (d.toNat - 48)) 0
      Double.ofDecimal negative digits (e - fraction.length)

/-- The number that a text in small letters spells, with blanks around it and a sign. -/
def real? (cs : List Char) : Option Double :=
  let cs := trim cs
  let negative := cs.head? == some '-'
  let body := Tag.dropSign cs
  let word := String.ofList body
  if word = "inf" || word = "infinity" then some (Double.infinite negative)
  else if word = "nan" then some Double.nan
  else pointed? negative body

/-- The sum of groups, each worth sixty times the next one. -/
def sixtyBase (groups : List Double) : Double :=
  (groups.reverse.zipIdx).foldl (fun sum (d, i) => sum.add (d.scale (Nat.pow 60 i)))
    (Double.zero false)

/-- The value of a number with a point behind its sign. -/
def unsignedReal (cs : List Char) : Except Problem Double :=
  let word := String.ofList cs
  if word = ".inf" then .ok (Double.infinite false)
  else if word = ".nan" then .ok Double.nan
  else
    match Text.split ':' cs with
    | [_] => orBad (real? cs)
    | groups => orBad ((groups.mapM real?).map sixtyBase)

/-- The number with a point of a scalar. -/
def float (s : String) : Except Problem Double :=
  let cs := (dropUnderscores s).map Char.toLower
  match cs with
  | [] => .error .emptyNumber
  | c :: _ => (fun d => if c = '-' then d.neg else d) <$> unsignedReal (Tag.dropSign cs)

end RequestWriter.Yaml.Number
