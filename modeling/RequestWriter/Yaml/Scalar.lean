import RequestWriter.Yaml.Number
import RequestWriter.Yaml.Moment
import RequestWriter.Text.Base64
import RequestWriter.Text.Casing

/-!
# Scalars

The tag of a scalar that has none, and the value of a scalar under its tag.
-/

namespace RequestWriter.Yaml

/-- A text without the newline at its end, which does not count for what a scalar looks like. A
newline alone is no empty text. -/
def dropFinalNewline (s : String) : String :=
  if s ≠ "\n" ∧ s.endsWith "\n" then String.ofList s.toList.dropLast else s

/-- The marks that stand for themselves when they are the whole of a scalar. There are no values of
that kind. -/
def bareMarks : List String := ["!", "&", "*"]

/-- The tag that a scalar gets from its looks: one that is plain, or that asks for it. -/
def Tag.ofPlain (text : String) : Tag :=
  let s := dropFinalNewline text
  let cs := s.toList
  if isNull s then .null
  else if isBool s then .bool
  else if isFloat cs then .float
  else if isInt cs then .int
  else if s = "<<" then .merge
  else if Moment.isMoment cs then .timestamp
  else if s = "=" then .default
  else if bareMarks.contains s then .unknown
  else .text

namespace Binary

/-- The groups of six bits that a text in base 64 spells. `seen` is their number so far modulo four,
and `pads` the number of equals signs. Characters outside the alphabet mean nothing, and nothing
counts behind the equals signs that fill the last group. -/
def sextets? (seen pads : Nat) : List Char → Option (List Nat)
  | [] => if seen = 0 then some [] else none
  | c :: rest =>
    if c = '=' then
      if 2 ≤ seen ∧ 4 ≤ seen + pads + 1 then some []
      else sextets? seen (if 2 ≤ seen then pads + 1 else pads) rest
    else
      match Text.sextetValue? c with
      | none => sextets? seen pads rest
      | some n => (sextets? ((seen + 1) % 4) 0 rest).map (n :: ·)

/-- The octets that a text in base 64 spells. -/
def octets? (cs : List Char) : Option (List UInt8) :=
  if cs.all fun c => c.toNat < 0x80 then (sextets? 0 0 cs).map Text.octetsOfSextets else none

end Binary

/-- The value of a text under a tag. There are none under the tags of containers and of keys. -/
def Tag.value (tag : Tag) (s : String) : Except Problem Scalar :=
  match tag with
  | .null => .ok .null
  | .bool =>
    match truthWords.lookup (Text.lower s) with
    | some b => .ok (.bool b)
    | none => .error .unknownWord
  | .int => Scalar.int <$> Number.int s
  | .float => Scalar.float <$> Number.float s
  | .binary =>
    match Binary.octets? s.toList with
    | some b => .ok (.bytes b)
    | none => .error .malformed
  | .timestamp =>
    match Moment.parts? (dropFinalNewline s).toList with
    | some parts => Number.orBad parts.scalar?
    | none => .error .noMoment
  | .text => .ok (.text s)
  | .sequence | .mapping | .merge | .default | .unknown => .error .malformed

end RequestWriter.Yaml
