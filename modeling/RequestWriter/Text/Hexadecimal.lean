/-!
# Hexadecimal digits

Reading and writing numbers by digits from `0` to `9` and `a` to `f`; capital letters are read as
well.
-/

namespace RequestWriter.Text

def hexValue? (c : Char) : Option Nat :=
  if '0' ≤ c ∧ c ≤ '9' then some (c.toNat - 48)
  else if 'a' ≤ c ∧ c ≤ 'f' then some (c.toNat - 87)
  else if 'A' ≤ c ∧ c ≤ 'F' then some (c.toNat - 55)
  else none

/-- The number that the `count` characters at the front spell, if all of them are digits. -/
def hexNumber? (count : Nat) (cs : List Char) : Option Nat :=
  if count ≤ cs.length then
    (cs.take count).foldlM (fun n c => (hexValue? c).map (16 * n + ·)) 0
  else none

/-- The last `width` hexadecimal digits of a number, in small letters. -/
def hexDigits : Nat → Nat → List Char
  | 0, _ => []
  | width + 1, n => hexDigits width (n / 16) ++ [Nat.digitChar (n % 16)]

end RequestWriter.Text
