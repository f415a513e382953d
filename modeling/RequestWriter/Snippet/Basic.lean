import RequestWriter.Checked
import RequestWriter.Snippet.Parser

/-!
# Snippets

A piece of generated code with the language and the library that it is for. Of the languages only
Python has a check.
-/

namespace RequestWriter

/-- A piece of generated code. -/
structure Snippet where
  language : String
  /-- The name of the library. -/
  variant : String
  source : String
  deriving DecidableEq, Repr

namespace Snippet

def check (data : List (Scalar × Value)) : Checked Snippet :=
  Snippet.mk <$> Field.required "language" Field.text data
    <*> Field.required "variant" Field.text data
    <*> Field.optional "source_text" "" Field.text data

def ofValue (v : Value) : Except Fault Snippet := do
  let data ← Field.ofMapping v
  (check data).toExcept .snippet

variable [Python.Parser]

/-- What is wrong with a snippet, if anything is. -/
def problem? (s : Snippet) : Option String :=
  if s.language = "python" then Python.fileMessage? (s.variant ++ ".py") s.source else none

/-- The outcome of the check of a snippet, which may hold lone halves if it is not whole. A Python
source is encoded before it is looked at. -/
def checked (s : Snippet) (whole : Bool) : Except Fault (Option String) :=
  if s.language = "python" && !whole then .error .notEncodable else .ok s.problem?

end Snippet

end RequestWriter
