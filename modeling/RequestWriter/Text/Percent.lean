import RequestWriter.Text.Utf8
import RequestWriter.Text.Printable

/-!
# Percent encoding

The unreserved characters stand for themselves; every other character is written by the octets of
its UTF-8 form, each as a percent sign and two hexadecimal digits in capitals.
-/

namespace RequestWriter.Text

/-- Letters and digits of ASCII, and four marks. -/
def isUnreserved (c : Char) : Bool :=
  c.isAlphanum || c == '-' || c == '.' || c == '_' || c == '~'

/-- An octet as a percent group. -/
def percentOctet (b : UInt8) : List Char :=
  '%' :: (hexDigits 2 b.toNat).map Char.toUpper

def percentChar (c : Char) : List Char :=
  if isUnreserved c then [c] else (String.utf8EncodeChar c).flatMap percentOctet

def percentEncode (s : String) : String := String.ofList (s.toList.flatMap percentChar)

end RequestWriter.Text
