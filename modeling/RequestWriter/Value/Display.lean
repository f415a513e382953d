import RequestWriter.Value
import RequestWriter.Decimal.Notation
import RequestWriter.Text.Printable

/-!
# Text of values

Two forms of a value in running text. The *display* form is what a value becomes where a text is
wanted: a text is itself. The *spelling* form is what messages and the parts of containers show: a
text stands between quotes.
-/

namespace RequestWriter

namespace Scalar

def display : Scalar → String
  | .null => "None"
  | .bool b => if b then "True" else "False"
  | .int i => toString i
  | .float d => Decimal.plainNotation.write d
  | .text s => s
  | .bytes b => Text.quotedBytes b
  | .date d => d.text
  | .timestamp t => t.text

def spelling : Scalar → String
  | .text s => Text.quoted s
  | .date d => d.spelling
  | .timestamp t => t.spelling
  | s => s.display

end Scalar

namespace Value

mutual

/-- The spelling form of a value. A container inside itself shows as dots. -/
def spelling : Value → String
  | .scalar s => s.spelling
  | .list items => "[" ++ Text.join ", " (spellings items) ++ "]"
  | .mapping entries => "\x7b" ++ Text.join ", " (entrySpellings entries) ++ "\x7d"
  | .ref _ => "..."

def spellings : List Value → List String
  | [] => []
  | v :: rest => v.spelling :: spellings rest

/-- The spelling forms of key and value pairs. -/
def entrySpellings : List (Scalar × Value) → List String
  | [] => []
  | (k, v) :: rest => (k.spelling ++ ": " ++ v.spelling) :: entrySpellings rest

end

def display : Value → String
  | .scalar s => s.display
  | v => v.spelling

@[simp] theorem display_text (s : String) : (Value.text s).display = s := rfl

end Value

end RequestWriter
