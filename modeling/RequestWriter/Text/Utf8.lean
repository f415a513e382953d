/-!
# UTF-8

Bytes of a text and the text of bytes. Encoding is core's, one character after another; decoding is
strict: an octet that continues nothing, a character written in more octets than it needs, half of
a surrogate pair and a code beyond the last character are all refused.
-/

namespace RequestWriter.Text

def utf8Bytes (cs : List Char) : List UInt8 := cs.flatMap String.utf8EncodeChar

def isTail (b : UInt8) : Bool := 0x80 ≤ b && b < 0xC0

/-- Whether three octets are a character: the second one is restricted after the first octet of the
shortest form, and after the one under which surrogates would lie. -/
def isTriple (a b c : UInt8) : Bool :=
  0xE0 ≤ a && a < 0xF0 && isTail b && isTail c && (a != 0xE0 || 0xA0 ≤ b)
    && (a != 0xED || b < 0xA0)

def isQuadruple (a b c d : UInt8) : Bool :=
  0xF0 ≤ a && a < 0xF5 && isTail b && isTail c && isTail d && (a != 0xF0 || 0x90 ≤ b)
    && (a != 0xF4 || b < 0x90)

/-- The character whose code has these octets, the first one without its mark. -/
def ofOctets (first : Nat) (tails : List UInt8) : Char :=
  Char.ofNat (tails.foldl (fun code b => code * 64 + (b.toNat - 0x80)) first)

/-- The characters that the bytes encode. -/
def utf8Chars? : List UInt8 → Option (List Char)
  | [] => some []
  | a :: rest =>
    if a < 0x80 then (utf8Chars? rest).map (Char.ofNat a.toNat :: ·)
    else
      match rest with
      | [] => none
      | b :: rest =>
        if 0xC2 ≤ a ∧ a < 0xE0 then
          if isTail b then (utf8Chars? rest).map (ofOctets (a.toNat - 0xC0) [b] :: ·) else none
        else
          match rest with
          | [] => none
          | c :: rest =>
            if isTriple a b c then
              (utf8Chars? rest).map (ofOctets (a.toNat - 0xE0) [b, c] :: ·)
            else
              match rest with
              | [] => none
              | d :: rest =>
                if isQuadruple a b c d then
                  (utf8Chars? rest).map (ofOctets (a.toNat - 0xF0) [b, c, d] :: ·)
                else none

def ofUtf8? (bytes : List UInt8) : Option String := (utf8Chars? bytes).map String.ofList

end RequestWriter.Text
