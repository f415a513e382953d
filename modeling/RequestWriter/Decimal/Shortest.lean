import RequestWriter.Double

/-!
# Shortest decimals

The decimal of a double is the one with the fewest digits among those that read back as the same
double, and the nearest of them to it. The search looks at one grid of decimals after another, from
one digit to seventeen: if a grid has a point inside the interval of reals that round to the double,
one of the two neighbours of the double on that grid is such a point.
-/

namespace RequestWriter.Decimal

/-- A decimal `digits * 10 ^ exponent`. -/
structure Digits where
  digits : Nat
  exponent : Int
  deriving DecidableEq, Repr

/-- A quotient of whole numbers `num / den` that stands for a positive value. -/
abbrev Ratio := Nat × Nat

/-- The value `m * 2 ^ q * 10 ^ (-e)` as a quotient. -/
def inUnitsOfTen (m : Nat) (q e : Int) : Ratio :=
  (m * twoTo q.toNat * tenTo (-e).toNat, twoTo (-q).toNat * tenTo e.toNat)

/-- Whether `digits * 10 ^ e` lies in the interval of reals that round to `m * 2 ^ q`. All three
values are compared in quarters of `2 ^ q`: the upper end is two quarters away, the lower end two,
or one where the doubles below are half as far apart. The ends belong to it when `m` is even. -/
def inside (m : Nat) (q : Int) (digits : Nat) (e : Int) : Bool :=
  let below := if m = twoTo 52 ∧ -1074 < q then 1 else 2
  let num := 4 * (digits * tenTo e.toNat * twoTo (-q).toNat)
  let unit := tenTo (-e).toNat * twoTo q.toNat
  let low := (4 * m - below) * unit
  let high := (4 * m + 2) * unit
  if m % 2 = 0 then low ≤ num && num ≤ high else low < num && num < high

/-- The neighbour of the value on the grid `10 ^ e` that reads back, the nearer one if both do. An
exact tie goes to the even neighbour. -/
def neighbour? (m : Nat) (q e : Int) : Option Nat :=
  let (num, den) := inUnitsOfTen m q e
  let low := num / den
  let rest := 2 * (num % den)
  match decide (0 < low) && inside m q low e, inside m q (low + 1) e with
  | false, false => none
  | true, false => some low
  | false, true => some (low + 1)
  | true, true =>
    some (if rest < den ∨ (rest = den ∧ low % 2 = 0) then low else low + 1)

/-- The place of the first digit: the least `k` with the value below `10 ^ k`. The guess comes from
the number of bits and is at most one too small. -/
def place (m : Nat) (q : Int) : Int :=
  let bits := Int.ofNat m.log2 + q
  let guess := Int.fdiv (bits * 30103) 100000
  let (num, den) := inUnitsOfTen m q guess
  if num < den then guess
  else if num < 10 * den then guess + 1
  else guess + 2

/-- The first grid with a point that reads back, from `17 - fuel` digits on. -/
def search (m : Nat) (q top : Int) : Nat → Digits
  | 0 => ⟨m, 0⟩
  | fuel + 1 =>
    let e := top - Int.ofNat (17 - fuel)
    match neighbour? m q e with
    | some digits => ⟨digits, e⟩
    | none => search m q top fuel

/-- Moves zeros at the end of the digits into the exponent. -/
def trim : Nat → Digits → Digits
  | 0, d => d
  | fuel + 1, d =>
    if d.digits ≠ 0 ∧ d.digits % 10 = 0 then trim fuel ⟨d.digits / 10, d.exponent + 1⟩ else d

/-- The shortest decimal of a finite double, without its sign. -/
def shortest (d : Double) : Digits :=
  if d.isZero then ⟨0, 0⟩
  else trim 17 (search d.significand d.power (place d.significand d.power) 17)

end RequestWriter.Decimal
