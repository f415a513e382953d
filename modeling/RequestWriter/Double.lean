/-!
# Double precision numbers

A number of the binary64 format is its pattern of 64 bits. Reading a decimal and the sums and
products that base-60 numbers need are exact computations on natural numbers, followed by one
rounding to the nearest double, a tie going to the even one. Nothing here depends on the floating
point unit, so all of it can be computed and reasoned about in the logic.
-/

namespace RequestWriter

abbrev twoTo (n : Nat) : Nat := Nat.pow 2 n

abbrev tenTo (n : Nat) : Nat := Nat.pow 10 n

/-- A binary64 number, by its bits. -/
structure Double where
  bits : UInt64
  deriving DecidableEq, Repr, Inhabited

namespace Double

def negative (d : Double) : Bool := d.bits.toNat / twoTo 63 = 1

def exponentField (d : Double) : Nat := d.bits.toNat / twoTo 52 % twoTo 11

def fraction (d : Double) : Nat := d.bits.toNat % twoTo 52

def isFinite (d : Double) : Bool := d.exponentField ≠ 2047

def isNaN (d : Double) : Bool := d.exponentField = 2047 && d.fraction ≠ 0

def isZero (d : Double) : Bool := d.exponentField = 0 && d.fraction = 0

/-- The whole number `m` of a finite value `m * 2 ^ q`. -/
def significand (d : Double) : Nat :=
  if d.exponentField = 0 then d.fraction else twoTo 52 + d.fraction

/-- The power `q` of a finite value `m * 2 ^ q`. -/
def power (d : Double) : Int :=
  if d.exponentField = 0 then -1074 else Int.ofNat d.exponentField - 1075

/-- The magnitude with these bits, under a sign. -/
def ofMagnitude (negative : Bool) (magnitude : Nat) : Double :=
  ⟨UInt64.ofNat ((if negative then twoTo 63 else 0) + magnitude)⟩

def infinityBits : Nat := 2047 * twoTo 52

def infinite (negative : Bool) : Double := ofMagnitude negative infinityBits

def nan : Double := ofMagnitude false (infinityBits + twoTo 51)

def zero (negative : Bool) : Double := ofMagnitude negative 0

/-- The quotient of two whole numbers rounded to a whole number, a tie to the even one. -/
def roundQuotient (num den : Nat) : Nat :=
  let low := num / den
  let rest := 2 * (num % den)
  if rest < den ∨ (rest = den ∧ low % 2 = 0) then low else low + 1

/-- The quotient `num / den` divided by `2 ^ q`, as a quotient of whole numbers. -/
def scaled (num den : Nat) (q : Int) : Nat × Nat :=
  if 0 ≤ q then (num, den * twoTo q.toNat) else (num * twoTo (-q).toNat, den)

/-- The double nearest to `num / den`. The power is chosen so that the significand has 53 bits, or
is the least one; the sum below then carries a significand that rounds up to `2 ^ 53` into the next
power by itself. -/
def ofQuotient (negative : Bool) (num den : Nat) : Double :=
  if num = 0 then zero negative
  else
    let guess := max (Int.ofNat num.log2 - Int.ofNat den.log2 - 53) (-1074)
    let (n, d) := scaled num den guess
    let q := if twoTo 53 ≤ n / d then guess + 1 else guess
    let (n, d) := scaled num den q
    let magnitude := (q + 1074).toNat * twoTo 52 + roundQuotient n d
    ofMagnitude negative (min magnitude infinityBits)

/-- The number of decimal digits of `n`; none for zero. -/
def digitCount (n : Nat) : Nat := if n = 0 then 0 else (Nat.toDigits 10 n).length

/-- The double nearest to `m * 10 ^ e`. Beyond the range of the format the answer is known from the
place of the first digit, so that no large power is computed. -/
def ofDecimal (negative : Bool) (m : Nat) (e : Int) : Double :=
  let place := Int.ofNat (digitCount m) + e
  if m = 0 ∨ place < -330 then zero negative
  else if 330 < place then infinite negative
  else if 0 ≤ e then ofQuotient negative (m * tenTo e.toNat) 1
  else ofQuotient negative m (tenTo (-e).toNat)

def ofInt (i : Int) : Double := ofQuotient (i < 0) i.natAbs 1

def neg (d : Double) : Double :=
  if d.isNaN then d else ofMagnitude (!d.negative) (d.bits.toNat % twoTo 63)

/-- A finite value as a signed whole number of units `2 ^ (-1074)`. -/
def units (d : Double) : Int :=
  let size := d.significand * twoTo (d.power + 1074).toNat
  if d.negative then -Int.ofNat size else Int.ofNat size

/-- The double nearest to a signed number of units `2 ^ (-1074)` over a divisor. -/
def ofUnits (units : Int) (den : Nat) : Double :=
  ofQuotient (units < 0) units.natAbs (den * twoTo 1074)

def add (a b : Double) : Double :=
  if a.isNaN || b.isNaN then nan
  else if !a.isFinite then if !b.isFinite && a.negative != b.negative then nan else a
  else if !b.isFinite then b
  else
    let total := a.units + b.units
    if total = 0 then zero (a.negative && b.negative) else ofUnits total 1

/-- The rounded product with a whole number that is not negative. -/
def scale (a : Double) (factor : Nat) : Double :=
  if a.isNaN then nan
  else if !a.isFinite then if factor = 0 then nan else a
  else
    let total := a.units * factor
    if total = 0 then zero a.negative else ofUnits total 1

/-- The whole number that a finite value is, if it is one. -/
def toInt? (d : Double) : Option Int :=
  if d.isFinite && d.units % Int.ofNat (twoTo 1074) = 0 then
    some (d.units / Int.ofNat (twoTo 1074)) else none

/-- Equality of values: the two zeros are equal, and the undefined value equals nothing. -/
def same (a b : Double) : Bool :=
  !a.isNaN && !b.isNaN && (a == b || (a.isZero && b.isZero))

end Double

end RequestWriter
