import RequestWriter.Text.Blank
import RequestWriter.Text.Hexadecimal
import RequestWriter.Text.Printable.Table

/-!
# Quoted form of a text

A value that is shown in a message stands between quotes, with everything that would not be visible
written as an escape. Single quotes are used unless the text holds one and no double quote.
-/

namespace RequestWriter.Text

def isPrintable (c : Char) : Bool :=
  if c.toNat < 0x80 then decide (0x20 ≤ c.toNat ∧ c.toNat < 0x7F)
  else inRanges printableRanges c.toNat

/-- One character inside quotes: the mark and the backslash are escaped, and what is not printable
is written by its code, in two, four or eight digits. -/
def quotedChar (mark c : Char) : List Char :=
  if c = mark ∨ c = '\\' then ['\\', c]
  else if c = '\n' then ['\\', 'n']
  else if c = '\r' then ['\\', 'r']
  else if c = '\t' then ['\\', 't']
  else if isPrintable c then [c]
  else if c.toNat < 0x100 then '\\' :: 'x' :: hexDigits 2 c.toNat
  else if c.toNat < 0x10000 then '\\' :: 'u' :: hexDigits 4 c.toNat
  else '\\' :: 'U' :: hexDigits 8 c.toNat

/-- The mark that needs fewer escapes: double only where single ones would have to be escaped. -/
def quoteMark (text : List Char) : Char :=
  if text.contains '\'' && !text.contains '"' then '"' else '\''

/-- The text between quotes, as messages show it. -/
def quoted (s : String) : String :=
  let mark := quoteMark s.toList
  String.ofList (mark :: s.toList.flatMap (quotedChar mark) ++ [mark])

/-- One byte inside quotes: only the printable characters of ASCII stand for themselves. -/
def quotedByte (mark : Char) (byte : UInt8) : List Char :=
  let c := Char.ofNat byte.toNat
  if c = mark ∨ c = '\\' then ['\\', c]
  else if c = '\n' then ['\\', 'n']
  else if c = '\r' then ['\\', 'r']
  else if c = '\t' then ['\\', 't']
  else if 0x20 ≤ byte.toNat ∧ byte.toNat < 0x7F then [c]
  else '\\' :: 'x' :: hexDigits 2 byte.toNat

/-- Bytes between quotes, marked by a leading `b`. -/
def quotedBytes (bytes : List UInt8) : String :=
  let mark := quoteMark (bytes.map fun byte => Char.ofNat byte.toNat)
  String.ofList ('b' :: mark :: bytes.flatMap (quotedByte mark) ++ [mark])

end RequestWriter.Text
