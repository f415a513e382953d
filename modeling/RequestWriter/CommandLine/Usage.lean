import RequestWriter.CommandLine.Words
import RequestWriter.CommandLine.Toolkit

/-!
# Commands and their usage

The commands of the program with the options that each one knows, and what is said about a command
line that asks for something else, or for help.
-/

namespace RequestWriter.CommandLine

namespace Scope

def programName : String := "request-snippets"

def commands : List (String × Scope) :=
  [("languages", .languages), ("code", .code), ("curl", .curl), ("example", .examples)]

/-- The name of a scope, with the name of the program in front. -/
def fullName : Scope → String
  | .program => programName
  | .languages => programName ++ " languages"
  | .code => programName ++ " code"
  | .curl => programName ++ " curl"
  | .examples => programName ++ " example"

/-- What follows the name in the line about usage. -/
def synopsis : Scope → String
  | .program => "[OPTIONS] COMMAND [ARGS]..."
  | .languages => "[OPTIONS]"
  | .code => "[OPTIONS] [LANGUAGE]"
  | .curl => "[OPTIONS]"
  | .examples => "[OPTIONS] DOC_PATH"

def usage (s : Scope) : String := "Usage: " ++ s.fullName ++ " " ++ s.synopsis ++ "\n"

end Scope

def helpOption : OptionSpec := ⟨"--help", none, .nothing⟩

def requestOptions : List OptionSpec := [
  ⟨"--url", none, .text⟩,
  ⟨"--method", some 'X', .text⟩,
  ⟨"--header", some 'H', .text⟩,
  ⟨"--data", some 'd', .text⟩,
  ⟨"--param", some 'p', .text⟩,
  ⟨"--doc", none, .existingPath⟩,
  ⟨"--path", none, .text⟩,
  ⟨"--auth-type", none, .choice (CredentialKind.all.map CredentialKind.name)⟩,
  ⟨"--auth-value", none, .text⟩]

/-- The languages in which examples can be shown. -/
def exampleTargets : List Target := [.json, .javascript, .python, .ruby]

/-- The options of a scope besides the one for help. -/
def Scope.ownOptions : Scope → List OptionSpec
  | .program => [⟨"--config", none, .path⟩, ⟨"--verbose", some 'v', .nothing⟩]
  | .languages => []
  | .code => [⟨"--variant", none, .text⟩, ⟨"--check", none, .nothing⟩] ++ requestOptions
  | .curl =>
    [⟨"--style", none, .choice (Shell.Style.all.map Shell.Style.name)⟩,
      ⟨"--output", some 'o', .path⟩] ++ requestOptions
  | .examples =>
    [⟨"--method", some 'X', .text⟩, ⟨"--path", none, .text⟩,
      ⟨"--language", none, .choice (exampleTargets.map Target.name)⟩,
      ⟨"--responses", none, .nothing⟩]

def Scope.options (s : Scope) : List OptionSpec := s.ownOptions ++ [helpOption]

/-- The lines about the options of a scope. -/
def Scope.help (s : Scope) : String :=
  s.usage ++ "\nOptions:\n" ++ String.join (s.options.map fun o => "  " ++ o.name ++ "\n")

/-- A text in which a carriage return and newline together are one newline. -/
def plainNewlines (s : String) : String := Text.replace "\r\n" "\n" s

/-- Whether a character may stand in the middle of a terminal code. -/
def isCodeChar (c : Char) : Bool := c == ';' || c == '?' || c.isDigit

/-- The length of the terminal code at the front behind its escape character, if there is one. -/
def terminalCode? : List Char → Option Nat
  | '[' :: rest =>
    let middle := rest.takeWhile isCodeChar
    match rest[middle.length]? with
    | some c => if c.isAlpha then some (middle.length + 2) else none
    | none => none
  | _ => none

/-- Leaves out the next `skip` characters, then every terminal code. -/
def dropCodesFrom (skip : Nat) : List Char → List Char
  | [] => []
  | c :: rest =>
    match skip with
    | n + 1 => dropCodesFrom n rest
    | 0 =>
      match if c = '\x1b' then terminalCode? rest else none with
      | some length => dropCodesFrom length rest
      | none => c :: dropCodesFrom 0 rest

def dropCodes (s : String) : String := String.ofList (dropCodesFrom 0 s.toList)

/-- A mistake in a command line. The usage of a scope stands in front of it if there is one. -/
structure Misuse where
  scope : Option Scope
  text : String
  deriving DecidableEq, Repr

/-- What is shown about the usage of a scope in front of a mistake. -/
def Scope.hint (s : Scope) : String :=
  s.usage ++ "Try '" ++ s.fullName ++ " --help' for help.\n\n"

def Misuse.message (m : Misuse) : String :=
  ((m.scope.map Scope.hint).getD "") ++ "Error: " ++ m.text ++ "\n"

/-- The end of a run at a mistake. -/
def Misuse.stop (m : Misuse) : Stop :=
  { exitCode := 2, err := plainNewlines (dropCodes m.message) }

/-- The mistake of words that cannot be read. Only for an unknown option the usage is shown. -/
def WordFault.misuse (s : Scope) (fault : WordFault) : Misuse :=
  match fault with
  | .unknownOption _ => ⟨some s, fault.message⟩
  | _ => ⟨none, fault.message⟩

/-- The words about a path at which nothing is. -/
def missingPath (value : String) : String := "Path " ++ Text.quoted value ++ " does not exist."

/-- What is wrong with the value of an option. -/
def Given.problem? (ws : Workspace) (g : Given) : Option String :=
  let what := "'" ++ g.option.name ++ "'"
  match g.option.expected with
  | .nothing | .text | .path => none
  | .choice names =>
    if names.contains g.value then none
    else some (invalidValue what (Text.quoted g.value ++ " is not one of "
      ++ Text.join ", " (names.map Text.quoted) ++ "."))
  | .existingPath =>
    if ws.hasRaw g.value then none else some (invalidValue what (missingPath g.value))

/-- The words about arguments that nobody asked for. -/
def extraArguments (extra : List String) : String :=
  "Got unexpected extra argument" ++ (if extra.length = 1 then "" else "s") ++ " ("
    ++ Text.join " " extra ++ ")"

def checkExtra (s : Scope) (extra : List String) : Except Stop Unit :=
  if extra.isEmpty then .ok () else .error (Misuse.stop ⟨some s, extraArguments extra⟩)

/-- Reads the words of a scope. Help ends the run; else the values of the options are checked, in
the order in which the options were first given. -/
def Scope.read (s : Scope) (ws : Workspace) (args : List String) : Except Stop Words :=
  match readWords s.options (s ≠ .program) args with
  | .error fault => .error (fault.misuse s).stop
  | .ok words =>
    if words.has helpOption.name then .error { exitCode := 0, out := s.help }
    else
      match words.settled.findSome? (Given.problem? ws) with
      | some text => .error (Misuse.stop ⟨some s, text⟩)
      | none => .ok words

end RequestWriter.CommandLine
