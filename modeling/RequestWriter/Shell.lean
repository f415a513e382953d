import RequestWriter.Request
import RequestWriter.Headers
import RequestWriter.Body
import RequestWriter.Literal.Dialect

/-!
# Shell commands

A request as a command of curl, in three layouts of the same tokens, or as a call of PowerShell.
-/

namespace RequestWriter.Shell

inductive Style where
  /-- One token a line. -/
  | multiline
  /-- All tokens on one line. -/
  | single
  /-- Every token between double quotes. -/
  | escaped
  | powershell
  deriving DecidableEq, Repr

namespace Style

def name : Style → String
  | .multiline => "multiline"
  | .single => "single"
  | .escaped => "escaped"
  | .powershell => "powershell"

def all : List Style := [.multiline, .single, .escaped, .powershell]

def ofName? (s : String) : Option Style := all.find? fun style => style.name == s

/-- The style that a value names. -/
def ofValue (v : Value) : Except Fault Style :=
  match v.text?.bind ofName? with
  | some style => .ok style
  | none => .error (.unknownStyle v.spelling)

/-- The type under which a command is downloaded. -/
def mimeType : Style → String
  | .powershell => "text/plain"
  | _ => "text/x-sh"

/-- The suffix of a file that holds a command. -/
def suffix : Style → String
  | .powershell => ".ps1"
  | _ => ".sh"

end Style

def curlTokens (r : Request) (headers : Headers) : List String :=
  ["curl -X " ++ r.verb, "\"" ++ r.url ++ "\""]
    ++ headers.map (fun (name, value) => "-H \"" ++ name ++ ": " ++ value ++ "\"")
    ++ match r.sentBody? with
      | some body => ["-d '" ++ Body.compact body ++ "'"]
      | none => []

/-- What stands between the tokens of a multiline command. -/
def continuation : String := " \\\n  "

def powershellQuote (s : String) : String := Target.powershell.dialect.quote s

/-- The call of PowerShell: the headers and the body are declared in front of it. -/
def powershellCall (r : Request) (headers : Headers) : String :=
  let declared := ["$headers = @\x7b"]
    ++ headers.map (fun (name, value) =>
      "    " ++ powershellQuote name ++ " = " ++ powershellQuote value)
    ++ ["\x7d"]
  let call := "Invoke-WebRequest -Uri " ++ powershellQuote r.url ++ " -Method " ++ r.verb
    ++ " -Headers $headers"
  Text.join "\n" (declared ++
    match r.sentBody? with
    | some body =>
      ["$body = " ++ powershellQuote (Body.compact body),
        call ++ " -Body $body -ContentType 'application/json'"]
    | none => [call])

/-- A token between double quotes. -/
def escapeToken (token : String) : String :=
  "\"" ++ Target.shell.dialect.escape token ++ "\""

/-- The command of a request with its final headers. -/
def command (style : Style) (r : Request) (headers : Headers) : String :=
  match style with
  | .multiline => Text.join continuation (curlTokens r headers)
  | .single => Text.join " " (curlTokens r headers)
  | .escaped => Text.join " " ((curlTokens r headers).map escapeToken)
  | .powershell => powershellCall r headers

/-- What writing a command leaves in the log. -/
def steps (r : Request) : List Step :=
  match r.sentBody? with
  | some body => Body.steps body
  | none => []

def format (style : Style) (r : Request) (headers : Headers) : Logged String :=
  Step.play (command style r headers) (steps r)

/-- The command for a style and headers as a page gives them. -/
def formatLoose (style : Value) (r : Request) (headers : Value) : Logged String := do
  let style ← Style.ofValue style
  let headers ← LooseHeaders.toHeaders headers
  format style r headers

end RequestWriter.Shell
