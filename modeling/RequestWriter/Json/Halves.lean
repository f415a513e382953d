import RequestWriter.Json.Reader

/-!
# Escapes of lone halves

A JSON text can name half of a surrogate pair by an escape, without the other half behind it. The
reader refuses such a text. Whoever takes the half for a character reads the text that has a mark in
the place of the escape.
-/

namespace RequestWriter.Json

/-- The code unit of the escape at the front, and the text behind the escape. -/
def escapedUnit? : List Char → Option (Nat × List Char)
  | '\\' :: 'u' :: a :: b :: c :: d :: rest => (unit? a b c d).map fun unit => (unit, rest)
  | _ => none

/-- Whether the escape of a second half is at the front. -/
def startsLowHalf (cs : List Char) : Bool := (escapedUnit? cs).any fun (unit, _) => isLowHalf unit

/-- Takes the next `kept` characters as they are, leaves out `dropped` characters behind them, and
then puts the mark in the place of every escape of a lone half. -/
def markFrom (mark : Char) (kept dropped : Nat) : List Char → List Char
  | [] => []
  | c :: rest =>
    match kept, dropped with
    | kept + 1, _ => c :: markFrom mark kept dropped rest
    | 0, dropped + 1 => markFrom mark 0 dropped rest
    | 0, 0 =>
      if c ≠ '\\' then c :: markFrom mark 0 0 rest
      else
        match escapedUnit? (c :: rest) with
        | none => c :: markFrom mark 1 0 rest
        | some (unit, behind) =>
          if isHighHalf unit && startsLowHalf behind then c :: markFrom mark 11 0 rest
          else if isHighHalf unit || isLowHalf unit then mark :: markFrom mark 0 5 rest
          else c :: markFrom mark 5 0 rest

/-- A text with a mark in the place of every escape of a lone half. -/
def markHalves (text : String) (mark : Char) : String :=
  String.ofList (markFrom mark 0 0 text.toList)

end RequestWriter.Json
