import RequestWriter.Text.Blank

/-!
# Parsers of Python

What the program asks of a parser of Python: whether a source is one, and if not, what is wrong.
-/

namespace RequestWriter.Python

/-- A parser, by the message about a source that it refuses. -/
class Parser where
  problem? : String → Option String

variable [Parser]

/-- The message about a file. Only sources are looked at, and blank ones are fine. -/
def fileMessage? (name source : String) : Option String :=
  if !name.endsWith ".py" || Text.allBlank source then none else Parser.problem? source

/-- The messages about the files that have a problem. -/
def filesMessages (files : List (String × String)) : List (String × String) :=
  files.filterMap fun (name, source) =>
    (fileMessage? name source).map fun message => (name, message)

end RequestWriter.Python
