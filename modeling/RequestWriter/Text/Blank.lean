/-!
# Blank characters

The characters that count as white space at the ends of a name or a value: the separators of every
script as well as the control characters that move the carriage.
-/

namespace RequestWriter.Text

/-- First and last character of each run of blanks. -/
def blankRanges : List (Nat × Nat) := [
  (0x09, 0x0D), (0x1C, 0x20), (0x85, 0x85), (0xA0, 0xA0), (0x1680, 0x1680), (0x2000, 0x200A),
  (0x2028, 0x2029), (0x202F, 0x202F), (0x205F, 0x205F), (0x3000, 0x3000)]

/-- Whether a code lies in one of the ranges. -/
def inRanges (ranges : List (Nat × Nat)) (code : Nat) : Bool :=
  ranges.any fun range => decide (range.1 ≤ code ∧ code ≤ range.2)

def isBlank (c : Char) : Bool := inRanges blankRanges c.toNat

def strip (s : String) : String :=
  let left := s.toList.dropWhile isBlank
  String.ofList (left.reverse.dropWhile isBlank).reverse

def allBlank (s : String) : Bool := s.toList.all isBlank

end RequestWriter.Text
