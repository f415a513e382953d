import RequestWriter.Decimal.Shortest
import RequestWriter.Calendar

/-!
# Notation of doubles

How the shortest decimal of a double is written: which exponents are positional, how an exponent is
spelled, and the words for the values that are no numbers.
-/

namespace RequestWriter.Decimal

structure Notation where
  /-- The least decimal exponent that is written positionally. -/
  firstPositional : Int
  /-- The greatest decimal exponent that is written positionally. -/
  lastPositional : Int
  /-- The least number of digits of a written exponent. -/
  exponentWidth : Nat
  infinity : String
  nan : String

/-- Exponents from -4 to 15 are positional, others have a sign and at least two digits. -/
def plainNotation : Notation := ⟨-4, 15, 2, "inf", "nan"⟩

/-- The same layout with the words of script languages. -/
def sourceNotation : Notation := { plainNotation with infinity := "Infinity", nan := "NaN" }

/-- Digits with a point after the first `place` of them; a whole number keeps one zero behind the
point. -/
def positional (digits : List Char) (place : Int) : List Char :=
  if place ≤ 0 then '0' :: '.' :: List.replicate (-place).toNat '0' ++ digits
  else if digits.length ≤ place.toNat then
    digits ++ List.replicate (place.toNat - digits.length) '0' ++ ['.', '0']
  else digits.take place.toNat ++ '.' :: digits.drop place.toNat

/-- Digits with a point after the first one, if there are more, and the exponent. -/
def scientific (width : Nat) (digits : List Char) (exponent : Int) : List Char :=
  let point := match digits with
    | first :: next :: rest => first :: '.' :: next :: rest
    | short => short
  point ++ 'e' :: (if exponent < 0 then '-' else '+')
    :: (Text.padLeftZero width exponent.natAbs).toList

def Notation.write (n : Notation) (d : Double) : String :=
  let sign := if d.negative then "-" else ""
  if d.isNaN then n.nan
  else if !d.isFinite then sign ++ n.infinity
  else
    let short := shortest d
    let digits := Nat.toDigits 10 short.digits
    let place := Int.ofNat digits.length + short.exponent
    let exponent := place - 1
    sign ++ String.ofList
      (if n.firstPositional ≤ exponent ∧ exponent ≤ n.lastPositional then positional digits place
      else scientific n.exponentWidth digits exponent)

end RequestWriter.Decimal
