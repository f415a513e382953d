import RequestWriter.Proofs.Literal.Quoted
import RequestWriter.Literal.Render
import RequestWriter.Json.Reader

/-!
# Reading literals of a dialect

A reader of the literals that a language allows for JSON values. It takes nothing from the writer
but the row of the dialect: the words for null and the truth values, the delimiter of strings with
their escape sequences, and the mark between a key and its value. Blanks and newlines between tokens
are skipped, and numbers are those of JSON. The entries of a mapping are kept as they stand, so that
two entries with one key would show.
-/

namespace RequestWriter.Literal

/-- Null or a truth value. -/
def constant? (d : Dialect) (cs : List Char) : Option (Value × List Char) :=
  ((d.null.toList.isPrefixOf? cs).map fun rest => (.null, rest)).or
    (((d.yes.toList.isPrefixOf? cs).map fun rest => (.bool true, rest)).or
      ((d.no.toList.isPrefixOf? cs).map fun rest => (.bool false, rest)))

/-- A string between delimiters. -/
def string? (d : Dialect) : List Char → Option (String × List Char)
  | [] => none
  | c :: rest =>
    if c = d.delimiter then (d.unquote? rest).map fun p => (String.ofList p.1, p.2) else none

/-- What stands between a key and its value, without the blanks around it. -/
def mark (d : Dialect) : List Char := d.keySeparator.toList.filter fun c => !Json.isSpace c

/-- A key, the mark and a value. -/
def pair? (d : Dialect) (value? : List Char → Option (Value × List Char)) (cs : List Char) :
    Option ((Scalar × Value) × List Char) :=
  (string? d cs).bind fun (key, rest) =>
    ((mark d).isPrefixOf? (Json.skipSpaces rest)).bind fun rest =>
      (value? (Json.skipSpaces rest)).map fun (v, rest) => ((.text key, v), rest)

/-- The entries of a mapping behind its opening brace. -/
def mappingBody? (d : Dialect) (size : Nat) (value? : List Char → Option (Value × List Char))
    (cs : List Char) : Option (Value × List Char) :=
  match Json.skipSpaces cs with
  | '\x7d' :: rest => some (.mapping [], rest)
  | cs =>
    (Json.sequence? (pair? d value?) '\x7d' size cs).map
      fun (entries, rest) => (.mapping entries, rest)

/-- A value at the front of a text of at most `size` characters, with containers nested less deep
than the second number. -/
def value? (d : Dialect) (size : Nat) : Nat → List Char → Option (Value × List Char)
  | 0, _ => none
  | depth + 1, cs =>
    (constant? d cs).or <|
      match cs with
      | '[' :: rest => Json.listBody? size (value? d size depth) rest
      | '\x7b' :: rest => mappingBody? d size (value? d size depth) rest
      | cs => ((string? d cs).map fun (s, rest) => (Value.text s, rest)).or (Json.number? cs)

/-- The value of a literal that is the whole text, with blanks allowed around it. -/
def read? (d : Dialect) (text : String) : Option Value :=
  let cs := Json.skipSpaces text.toList
  (value? d (cs.length + 1) (cs.length + 1) cs).bind fun (v, rest) =>
    if (Json.skipSpaces rest).isEmpty then some v else none

end RequestWriter.Literal
