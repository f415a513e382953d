import RequestWriter.Proofs.Json.Grammar
import RequestWriter.Text.Blank

/-!
# The syntax of Python snippets

The forms of Python source in which client code is written, as inductive relations on texts: names,
constants, numbers, one-line string literals, displays, attributes and calls as expressions;
imports, assignments and expressions as statements on lines of their own; and blocks of statements,
of which a `with` statement sets one further in. The forms are those of the language reference, each
within its limits there, and leave open what the writers do with them. The same rules say which
sources are none: those with a literal that does not end on its line.
-/

namespace RequestWriter.Python

/-- The words that are no names. -/
def keywords : List String :=
  ["False", "None", "True", "and", "as", "assert", "async", "await", "break", "class", "continue",
    "def", "del", "elif", "else", "except", "finally", "for", "from", "global", "if", "import",
    "in", "is", "lambda", "nonlocal", "not", "or", "pass", "raise", "return", "try", "while",
    "with", "yield"]

def isNameChar (c : Char) : Bool := c.isAlphanum || c == '_'

def isName (s : String) : Bool :=
  match s.toList with
  | [] => false
  | c :: cs => (c.isAlpha || c == '_') && cs.all isNameChar && !keywords.contains s

/-- The letters that an escape can have. -/
def escapes : List Char := ['\\', '\'', '"', 'a', 'b', 'f', 'n', 'r', 't', 'v']

/-- What can stand between the quotation marks of a literal. -/
inductive Chars : List Char → Prop
  | nil : Chars []
  | plain {c : Char} {cs : List Char} (other : c ∉ ['"', '\\', '\n', '\r'])
      (rest : Chars cs) : Chars (c :: cs)
  | escape {c : Char} {cs : List Char} (letter : c ∈ escapes) (rest : Chars cs) :
      Chars ('\\' :: c :: cs)

/-- White space inside brackets, where a line may end. -/
abbrev Gap := {s : String // ∀ c ∈ s.toList, c = ' ' ∨ c = '\n'}

/-- An item of a list display. -/
structure Item where
  gap : Gap
  text : String

def Item.source (i : Item) : String := i.gap ++ i.text

/-- An entry of a dictionary display. -/
structure Entry where
  gap : Gap
  key : String
  gap' : Gap
  text : String

def Entry.source (e : Entry) : String := e.gap ++ (e.key ++ (":" ++ (e.gap' ++ e.text)))

/-- A keyword argument of a call. -/
structure Keyword where
  name : String
  text : String

def Keyword.source (k : Keyword) : String := k.name ++ ("=" ++ k.text)

/-- A primary can stand in front of a point or of the arguments of a call. -/
inductive Kind where
  | primary
  | expression

/-- Expressions with so many parts inside one another at most. A JSON number is a number of Python
under the operator of its sign. -/
inductive Form : Kind → Nat → String → Prop
  | name {depth : Nat} {s : String} (named : isName s = true) : Form .primary depth s
  | member {depth : Nat} {s name : String} (receiver : Form .primary depth s)
      (named : isName name = true) : Form .primary (depth + 1) (s ++ ("." ++ name))
  | call {depth : Nat} {s : String} {positional : List String} {named : List Keyword}
      (receiver : Form .primary depth s)
      (values : ∀ text ∈ positional, Form .expression depth text)
      (names : ∀ k ∈ named, isName k.name = true) (distinct : (named.map Keyword.name).Nodup)
      (namedValues : ∀ k ∈ named, Form .expression depth k.text) :
      Form .primary (depth + 1)
        (s ++ ("(" ++ Text.join ", " (positional ++ named.map Keyword.source) ++ ")"))
  | primary {depth : Nat} {s : String} (form : Form .primary depth s) : Form .expression depth s
  | constant {depth : Nat} {s : String} (known : s ∈ ["None", "True", "False"]) :
      Form .expression depth s
  | number {depth : Nat} {s : String} {v : Value} (numeral : Json.Grammar.Number s.toList v) :
      Form .expression depth s
  | text {depth : Nat} {cs : List Char} (chars : Chars cs) :
      Form .expression depth ("\"" ++ String.ofList cs ++ "\"")
  | list {depth : Nat} {items : List Item} {gap : Gap}
      (values : ∀ i ∈ items, Form .expression depth i.text) :
      Form .expression (depth + 1) ("[" ++ (Text.join "," (items.map Item.source) ++ gap) ++ "]")
  | dictionary {depth : Nat} {entries : List Entry} {gap : Gap}
      (keys : ∀ e ∈ entries, Form .expression depth e.key)
      (values : ∀ e ∈ entries, Form .expression depth e.text) :
      Form .expression (depth + 1)
        ("\x7b" ++ (Text.join "," (entries.map Entry.source) ++ gap) ++ "\x7d")

/-- How far expressions or blocks nest. No parser has a limit below it. -/
def maxNesting : Nat := 64

/-- Statements of one logical line. -/
inductive Simple : String → Prop
  | importing {name : String} (named : isName name = true) : Simple ("import " ++ name)
  | assignment {name s : String} (named : isName name = true)
      (value : Form .expression maxNesting s) : Simple (name ++ (" = " ++ s))
  | expression {s : String} (value : Form .expression maxNesting s) : Simple s

/-- The blanks in front of a line. -/
def margin (width : Nat) : String := String.ofList (List.replicate width ' ')

/-- Statements one below the other behind a margin, with empty lines in front of them, and with so
many blocks inside one another at most. -/
inductive Block : Nat → Nat → String → Prop
  | line {levels width : Nat} {s : String} (statement : Simple s) :
      Block levels width (margin width ++ s)
  | within {levels width inner : Nat} {s name body : String} (further : width < inner)
      (context : Form .expression maxNesting s) (named : isName name = true)
      (statements : Block levels inner body) :
      Block (levels + 1) width
        (margin width ++ ("with " ++ (s ++ (" as " ++ (name ++ (":\n" ++ body))))))
  | blank {levels width : Nat} {s : String} (rest : Block levels width s) :
      Block levels width ("\n" ++ s)
  | next {levels width : Nat} {s t : String} (first : Block levels width s)
      (rest : Block levels width t) : Block levels width (s ++ ("\n" ++ t))

/-- Whether a source is of these forms. Every kind of line end counts as one newline, and a null
character ends every source. -/
structure Valid (source : String) : Prop where
  noNull : '\x00' ∉ source.toList
  statements : Block maxNesting 0 (String.ofList (Text.unifyLineEnds source.toList))

section Literals

/-- Where a reader of literals stands. In code a literal does not begin directly behind a name,
which could be its prefix, or behind another literal. -/
inductive Spot where
  | code (free : Bool)
  | literal
  | escaped

/-- Whether a literal between double quotes is cut off at the end of its line. A reader that comes
to a comment, or to a literal of another kind, says nothing of the rest. -/
def cutOff : Spot → List Char → Bool
  | .code _, [] => false
  | .literal, [] | .escaped, [] => true
  | .code free, c :: cs =>
    if c = '"' then free && cutOff .literal cs
    else if c = '\'' || c = '#' then false
    else cutOff (.code !(isNameChar c)) cs
  | .literal, c :: cs =>
    if c = '"' then cutOff (.code false) cs
    else if c = '\\' then cutOff .escaped cs
    else c = '\n' || cutOff .literal cs
  | .escaped, _ :: cs => cutOff .literal cs

/-- Whether a source has a literal that is cut off. -/
def IsCut (source : String) : Prop :=
  cutOff (.code true) (Text.unifyLineEnds source.toList) = true

end Literals

end RequestWriter.Python
