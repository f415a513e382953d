import RequestWriter.Snippet.Parser
import RequestWriter.Text.Basic

/-!
# Closed source text

A check that every string literal and every bracket of a Python source is closed, by which the
program can be run where there is no parser. It looks at nothing else, so a source that passes may
still be no program. A literal between single marks ends before its line does, unless the line end
is escaped; a literal between triple marks ends before the text does. Brackets inside literals and
comments do not count. The first problem is reported, and a bracket that is never closed only at the
end of the text. A text that holds a null character is no source at all.
-/

namespace RequestWriter.Closed

inductive Problem where
  | nullCharacter
  /-- A literal that begins on one line and is cut off on another. -/
  | openLiteral (triple : Bool) (start detected : Nat)
  | neverClosed (bracket : Char) (line : Nat)
  | unmatched (bracket : Char) (line : Nat)
  | mismatched (closing opening : Char) (openingLine line : Nat)
  deriving DecidableEq, Repr

def Problem.words : Problem → String
  | .nullCharacter => "source code string cannot contain null bytes"
  | .openLiteral triple _ detected =>
    "unterminated " ++ (if triple then "triple-quoted " else "")
      ++ s!"string literal (detected at line {detected})"
  | .neverClosed bracket _ => s!"'{bracket}' was never closed"
  | .unmatched bracket _ => s!"unmatched '{bracket}'"
  | .mismatched closing opening openingLine line =>
    s!"closing parenthesis '{closing}' does not match opening parenthesis '{opening}'"
      ++ (if openingLine = line then "" else s!" on line {openingLine}")

/-- The line to which a problem is put down, if it has a line. -/
def Problem.line? : Problem → Option Nat
  | .nullCharacter => none
  | .openLiteral _ start _ => some start
  | .neverClosed _ line => some line
  | .unmatched _ line => some line
  | .mismatched _ _ _ line => some line

def Problem.message (p : Problem) : String :=
  "SyntaxError: " ++ p.words ++ " (line " ++ (p.line?.map toString).getD "None" ++ ")"

/-- Where the reader of a source stands. -/
inductive Place where
  | code
  | comment
  /-- Inside a literal with this mark that began on this line. -/
  | literal (mark : Char) (triple : Bool) (start : Nat)
  deriving DecidableEq, Repr

/-- The bracket that a closing bracket closes. -/
def partner? : Char → Option Char
  | ')' => some '('
  | ']' => some '['
  | '\x7d' => some '\x7b'
  | _ => none

def opens (c : Char) : Bool := c == '(' || c == '[' || c == '\x7b'

def isMark (c : Char) : Bool := c == '"' || c == '\''

/-- Whether the text goes on with two more of a mark. -/
def twoMore (mark : Char) (cs : List Char) : Bool := [mark, mark].isPrefixOf cs

/-- Reads on from a place. `skip` characters are passed over first; `opened` holds the brackets that
are open with their lines, the innermost first. -/
def scan (place : Place) (skip line : Nat) (opened : List (Char × Nat)) :
    List Char → Option Problem
  | [] =>
    match place with
    | .literal _ triple start => some (.openLiteral triple start line)
    | _ =>
      match opened with
      | [] => none
      | (bracket, at_) :: _ => some (.neverClosed bracket at_)
  | c :: rest =>
    let next := if c = '\n' then line + 1 else line
    match skip with
    | skip + 1 => scan place skip next opened rest
    | 0 =>
      match place with
      | .comment => scan (if c = '\n' then .code else .comment) 0 next opened rest
      | .literal mark triple start =>
        if c = '\\' then scan place 1 next opened rest
        else if triple then
          if c = mark && twoMore mark rest then scan .code 2 next opened rest
          else scan place 0 next opened rest
        else if c = '\n' then some (.openLiteral false start line)
        else scan (if c = mark then .code else place) 0 next opened rest
      | .code =>
        if c = '#' then scan .comment 0 next opened rest
        else if isMark c then
          if twoMore c rest then scan (.literal c true line) 2 next opened rest
          else scan (.literal c false line) 0 next opened rest
        else if opens c then scan .code 0 next ((c, line) :: opened) rest
        else
          match partner? c with
          | none => scan .code 0 next opened rest
          | some partner =>
            match opened with
            | [] => some (.unmatched c line)
            | (bracket, at_) :: outer =>
              if bracket = partner then scan .code 0 next outer rest
              else some (.mismatched c bracket at_ line)

/-- A text without the newline at its end. -/
def dropLastNewline (cs : List Char) : List Char :=
  match cs.reverse with
  | '\n' :: rest => rest.reverse
  | _ => cs

/-- The first problem of a source. Every kind of line end counts as one newline. -/
def problem? (source : String) : Option Problem :=
  if source.toList.contains '\x00' then some .nullCharacter
  else scan .code 0 1 [] (dropLastNewline (Text.unifyLineEnds source.toList))

instance : Python.Parser := ⟨fun source => (problem? source).map Problem.message⟩

end RequestWriter.Closed
