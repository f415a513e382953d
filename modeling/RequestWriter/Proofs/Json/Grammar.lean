import RequestWriter.Value

/-!
# The grammar of JSON texts

RFC 8259 as inductive relations between a text and what it denotes, written independently of the
reader. A production relates exactly the characters that it spans, so no relation mentions what
follows. The two limits of this library are part of the production of numbers: a number in integer
form has at most 4300 digits, and any other number is finite as a double. An escape that names half
of a surrogate pair has no production.

Containers hold a list of slots, each one the spelling of an item with the blanks around it. This
keeps `Denotes` a single inductive relation, so that an induction on a derivation needs no mutual
statements.
-/

namespace RequestWriter.Json.Grammar

/-- The four characters of insignificant white space. -/
def IsBlank (c : Char) : Prop := c = ' ' ∨ c = '\t' ∨ c = '\n' ∨ c = '\r'

/-- A run of white space, which may be empty. -/
abbrev Blanks := {cs : List Char // ∀ c ∈ cs, IsBlank c}

/-- The number that a run of decimal digits spells. -/
abbrev spelled (digits : List Char) : Nat := Nat.ofDigitChars 10 digits 0

/-- A whole number under a sign. -/
def signed (negative : Bool) (n : Nat) : Int := if negative then -(n : Int) else n

/-- The production `[ minus ]`. -/
inductive Minus : List Char → Bool → Prop
  | absent : Minus [] false
  | present : Minus ['-'] true

/-- The production `int = zero / ( digit1-9 *DIGIT )`. -/
inductive Whole : List Char → Prop
  | zero : Whole ['0']
  | digits {d : Char} {ds : List Char} (first : d.isDigit) (nonzero : d ≠ '0')
      (rest : ∀ c ∈ ds, c.isDigit) : Whole (d :: ds)

/-- The production `[ frac ]`, with the digits behind the point. -/
inductive Fraction : List Char → List Char → Prop
  | absent : Fraction [] []
  | present {ds : List Char} (nonempty : ds ≠ []) (digits : ∀ c ∈ ds, c.isDigit) :
      Fraction ('.' :: ds) ds

/-- The sign of an exponent. -/
inductive ExponentSign : List Char → Bool → Prop
  | absent : ExponentSign [] false
  | plus : ExponentSign ['+'] false
  | minus : ExponentSign ['-'] true

/-- The production `[ exp ]`, with its value. -/
inductive Exponent : List Char → Option Int → Prop
  | absent : Exponent [] none
  | present {e : Char} {sign ds : List Char} {negative : Bool} (mark : e = 'e' ∨ e = 'E')
      (sgn : ExponentSign sign negative) (nonempty : ds ≠ []) (digits : ∀ c ∈ ds, c.isDigit) :
      Exponent (e :: sign ++ ds) (some (signed negative (spelled ds)))

/-- The double of a number that has a fraction or an exponent. -/
def double (negative : Bool) (whole fraction : List Char) (exponent : Option Int) : Double :=
  Double.ofDecimal negative (spelled (whole ++ fraction)) (exponent.getD 0 - fraction.length)

/-- The production `number = [ minus ] int [ frac ] [ exp ]`, within the limits. -/
inductive Number : List Char → Value → Prop
  | integer {sign whole : List Char} {negative : Bool} (sgn : Minus sign negative)
      (int : Whole whole) (short : whole.length ≤ 4300) :
      Number (sign ++ whole) (.int (signed negative (spelled whole)))
  | float {sign whole frac fraction exp : List Char} {negative : Bool} {exponent : Option Int}
      (sgn : Minus sign negative) (int : Whole whole) (fracPart : Fraction frac fraction)
      (expPart : Exponent exp exponent) (form : fraction ≠ [] ∨ exponent ≠ none)
      (finite : (double negative whole fraction exponent).isFinite) :
      Number (sign ++ whole ++ frac ++ exp)
        (.scalar (.float (double negative whole fraction exponent)))

/-- The production `HEXDIG`, in either case. -/
inductive HexDigit : Char → Nat → Prop
  | decimal {c : Char} (low : '0' ≤ c) (high : c ≤ '9') : HexDigit c (c.toNat - '0'.toNat)
  | small {c : Char} (low : 'a' ≤ c) (high : c ≤ 'f') : HexDigit c (10 + (c.toNat - 'a'.toNat))
  | capital {c : Char} (low : 'A' ≤ c) (high : c ≤ 'F') : HexDigit c (10 + (c.toNat - 'A'.toNat))

/-- The production `4HEXDIG`, a code unit. -/
inductive CodeUnit : List Char → Nat → Prop
  | mk {a b c d : Char} {i j k l : Nat} (first : HexDigit a i) (second : HexDigit b j)
      (third : HexDigit c k) (fourth : HexDigit d l) :
      CodeUnit [a, b, c, d] (((i * 16 + j) * 16 + k) * 16 + l)

/-- The escapes of one letter. -/
inductive Escape : Char → Char → Prop
  | quote : Escape '"' '"'
  | backslash : Escape '\\' '\\'
  | slash : Escape '/' '/'
  | backspace : Escape 'b' '\x08'
  | formFeed : Escape 'f' '\x0c'
  | newline : Escape 'n' '\n'
  | carriageReturn : Escape 'r' '\r'
  | tab : Escape 't' '\t'

/-- The production `*char`, with the characters that it stands for. -/
inductive Chars : List Char → List Char → Prop
  | nil : Chars [] []
  | plain {c : Char} {t s : List Char} (printable : 0x20 ≤ c.toNat) (noQuote : c ≠ '"')
      (noBackslash : c ≠ '\\') (rest : Chars t s) : Chars (c :: t) (c :: s)
  | escape {e c : Char} {t s : List Char} (letter : Escape e c) (rest : Chars t s) :
      Chars ('\\' :: e :: t) (c :: s)
  | unit {hex t s : List Char} {u : Nat} (digits : CodeUnit hex u)
      (whole : u < 0xD800 ∨ 0xDFFF < u) (rest : Chars t s) :
      Chars ('\\' :: 'u' :: hex ++ t) (Char.ofNat u :: s)
  | pair {hex hex' t s : List Char} {u u' : Nat} (high : CodeUnit hex u)
      (isHigh : 0xD800 ≤ u ∧ u ≤ 0xDBFF) (low : CodeUnit hex' u')
      (isLow : 0xDC00 ≤ u' ∧ u' ≤ 0xDFFF) (rest : Chars t s) :
      Chars ('\\' :: 'u' :: hex ++ ('\\' :: 'u' :: hex' ++ t))
        (Char.ofNat (0x10000 + (u - 0xD800) * 0x400 + (u' - 0xDC00)) :: s)

/-- An item of a list with the blanks around it. -/
structure Item where
  before : Blanks
  text : List Char
  after : Blanks
  value : Value

/-- The characters of an item and its blanks. -/
def Item.chars (i : Item) : List Char := i.before ++ i.text ++ i.after

/-- A member of an object: the spelling of its key, the blanks around key, colon and value. -/
structure Member where
  before : Blanks
  name : List Char
  key : List Char
  gap : Blanks
  gap' : Blanks
  text : List Char
  after : Blanks
  value : Value

/-- The characters of a member and its blanks. -/
def Member.chars (m : Member) : List Char :=
  m.before ++ ('"' :: m.name ++ '"' :: (m.gap ++ ':' :: (m.gap' ++ m.text))) ++ m.after

/-- The assignment that a member stands for. -/
def Member.pair (m : Member) : String × Value := (String.ofList m.key, m.value)

/-- The value of the last assignment to a key. -/
def lastValue (key : String) (pairs : List (String × Value)) : Value :=
  ((pairs.filter fun pair => pair.1 = key).getLast?.map Prod.snd).getD .null

/-- The mapping that assignments leave: each key once, at the place of its first assignment, with
the value of its last one. -/
def assigned (pairs : List (String × Value)) : Value :=
  .object ((pairs.map Prod.fst).eraseDups.map fun key => (key, lastValue key pairs))

/-- Texts with commas between them. -/
def commas (texts : List (List Char)) : List Char := [','].intercalate texts

/-- The production `value`, with the value that it denotes. -/
inductive Denotes : List Char → Value → Prop
  | null : Denotes ['n', 'u', 'l', 'l'] .null
  | yes : Denotes ['t', 'r', 'u', 'e'] (.bool true)
  | no : Denotes ['f', 'a', 'l', 's', 'e'] (.bool false)
  | number {t : List Char} {v : Value} (h : Number t v) : Denotes t v
  | string {t s : List Char} (h : Chars t s) :
      Denotes ('"' :: t ++ ['"']) (.text (String.ofList s))
  | emptyList (b : Blanks) : Denotes ('[' :: b ++ [']']) (.list [])
  | list {items : List Item} (nonempty : items ≠ [])
      (values : ∀ i ∈ items, Denotes i.text i.value) :
      Denotes ('[' :: commas (items.map Item.chars) ++ [']']) (.list (items.map Item.value))
  | emptyObject (b : Blanks) : Denotes ('\x7b' :: b ++ ['\x7d']) (.mapping [])
  | object {members : List Member} (nonempty : members ≠ [])
      (keys : ∀ m ∈ members, Chars m.name m.key)
      (values : ∀ m ∈ members, Denotes m.text m.value) :
      Denotes ('\x7b' :: commas (members.map Member.chars) ++ ['\x7d'])
        (assigned (members.map Member.pair))

/-- The production `JSON-text = ws value ws`. -/
inductive Text : List Char → Value → Prop
  | mk (before after : Blanks) {t : List Char} {v : Value} (h : Denotes t v) :
      Text (before ++ t ++ after) v

end RequestWriter.Json.Grammar
