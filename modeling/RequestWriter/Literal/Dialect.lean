import RequestWriter.Value.Display
import RequestWriter.Fault

/-!
# Literal dialects

How a language writes string literals and the values of JSON. A dialect is a row of choices, and all
writers go by the row: no rule for a single language stands anywhere else.
-/

namespace RequestWriter

structure Dialect where
  /-- The mark at both ends of a string literal. -/
  delimiter : Char
  /-- What the delimiter becomes inside a literal. -/
  escapedDelimiter : List Char
  /-- Whether a backslash is doubled. -/
  escapesBackslash : Bool := true
  /-- Whether a newline becomes an escape. -/
  escapesNewline : Bool := true
  null : String := "null"
  yes : String := "true"
  no : String := "false"
  /-- What stands between a key and its value. -/
  keySeparator : String := ": "
  deriving DecidableEq, Repr

/-- The languages in which literals can be written. -/
inductive Target where
  | javascript
  | python
  | ruby
  | json
  | shell
  | powershell
  deriving DecidableEq, Repr

namespace Target

def name : Target → String
  | .javascript => "javascript"
  | .python => "python"
  | .ruby => "ruby"
  | .json => "json"
  | .shell => "shell"
  | .powershell => "powershell"

/-- All targets, in the order of their names. -/
def all : List Target := [.javascript, .json, .powershell, .python, .ruby, .shell]

/-- The row of a target. Single-quoted strings of PowerShell have no escape sequences: the quote is
doubled and everything else stands for itself. -/
def dialect : Target → Dialect
  | .javascript => { delimiter := '\'', escapedDelimiter := ['\\', '\''] }
  | .python =>
    { delimiter := '"', escapedDelimiter := ['\\', '"'], null := "None", yes := "True",
      no := "False" }
  | .ruby =>
    { delimiter := '\'', escapedDelimiter := ['\\', '\''], null := "nil", keySeparator := " => " }
  | .json => { delimiter := '"', escapedDelimiter := ['\\', '"'] }
  | .shell => { delimiter := '"', escapedDelimiter := ['\\', '"'] }
  | .powershell =>
    { delimiter := '\'', escapedDelimiter := ['\'', '\''], escapesBackslash := false,
      escapesNewline := false, null := "$null", yes := "$true", no := "$false",
      keySeparator := " = " }

def ofName? (s : String) : Option Target := all.find? fun t => t.name == s

/-- The target that a value names. A container cannot be looked up at all. -/
def ofValue : Value → Except Fault Target
  | .scalar s =>
    let unknown := Except.error (.unsupportedLanguage s.display (all.map name))
    match s with
    | .text t => match ofName? t with
      | some target => .ok target
      | none => unknown
    | _ => unknown
  | _ => .error .wrongKind

end Target

/-- A character inside a literal: a backslash is doubled, the delimiter and the newline are
escaped, each where the dialect says so. -/
def Dialect.escapeChar (d : Dialect) (c : Char) : List Char :=
  if c = '\\' ∧ d.escapesBackslash then ['\\', '\\']
  else if c = d.delimiter then d.escapedDelimiter
  else if c = '\n' ∧ d.escapesNewline then ['\\', 'n']
  else [c]

def Dialect.escape (d : Dialect) (s : String) : String :=
  String.ofList (s.toList.flatMap d.escapeChar)

def Dialect.quote (d : Dialect) (s : String) : String :=
  String.ofList (d.delimiter :: s.toList.flatMap d.escapeChar ++ [d.delimiter])

end RequestWriter
