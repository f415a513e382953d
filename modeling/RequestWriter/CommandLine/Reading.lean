import RequestWriter.CommandLine.Usage

/-!
# Reading command lines

The toolkit with which the program is built. Codes that colour a terminal are taken out of
everything that is shown, and the streams have plain newlines.
-/

namespace RequestWriter.CommandLine

/-- The description of a request by the words of a command. -/
def RequestOptions.ofWords (words : Words) : RequestOptions where
  url := words.value? "--url"
  method := (words.value? "--method").getD "GET"
  headers := words.values "--header"
  data := words.value? "--data"
  params := words.values "--param"
  document := (words.value? "--doc").map Path.ofText
  path := words.value? "--path"
  credentialKind := ((words.value? "--auth-type").bind CredentialKind.ofName?).getD .bearer
  credentialValue := words.value? "--auth-value"

/-- The path of the document that examples are made from. -/
def documentArgument (ws : Workspace) (given : Option String) : Except Stop Path :=
  match given with
  | none => .error (Misuse.stop ⟨some .examples, "Missing argument 'DOC_PATH'."⟩)
  | some s =>
    if ws.hasRaw s then .ok (Path.ofText s)
    else .error (Misuse.stop ⟨some .examples, invalidValue "'DOC_PATH'" (missingPath s)⟩)

/-- The command that the words of a scope ask for. The program itself is no command. -/
def Command.ofWords (ws : Workspace) (s : Scope) (words : Words) : Except Stop Command :=
  match s with
  | .program => .error (Misuse.stop ⟨some .program, "Missing command."⟩)
  | .languages => do
    checkExtra s words.arguments
    return .languages
  | .code => do
    checkExtra s words.arguments.tail
    return .code words.arguments.head? (words.value? "--variant") (words.has "--check")
      (.ofWords words)
  | .curl => do
    checkExtra s words.arguments
    return .curl ((words.value? "--style").bind Shell.Style.ofName?)
      ((words.value? "--output").map Path.ofText) (.ofWords words)
  | .examples => do
    let document ← documentArgument ws words.arguments.head?
    checkExtra s words.arguments.tail
    return .examples document (words.value? "--method") (words.value? "--path")
      (((words.value? "--language").bind Target.ofName?).getD .json) (words.has "--responses")

/-- The command that the arguments of a scope ask for. -/
def Command.read (ws : Workspace) (s : Scope) (args : List String) : Except Stop Command := do
  let words ← s.read ws args
  Command.ofWords ws s words

/-- Refuses a name that no command has. One that looks like an option, behind two hyphens that end
the options, is first read as one. -/
def refuseCommand (ws : Workspace) (name : String) (args : List String) :
    Except Stop Invocation := do
  let _ ← Scope.program.read ws (name :: args)
  .error (Misuse.stop ⟨some .program, "No such command " ++ Text.quoted name ++ "."⟩)

/-- What the words of the program ask for: its own options, and behind the name of a command the
words of the command. -/
def Invocation.read (ws : Workspace) (args : List String) : Except Stop Invocation := do
  let words ← Scope.program.read ws args
  match words.arguments with
  | [] => .error (Misuse.stop ⟨some .program, "Missing command."⟩)
  | name :: args =>
    match Scope.commands.lookup name with
    | none => refuseCommand ws name args
    | some s =>
      return {
        verbose := words.has "--verbose"
        configuration := (words.value? "--config").map Path.ofText
        command := Command.read ws s args }

def shownText (text : String) : String := plainNewlines (dropCodes text ++ "\n")

instance : Toolkit where
  read := Invocation.read
  misuse s text := Misuse.stop ⟨some s, text⟩
  failure message := { exitCode := 1, err := shownText ("Error: " ++ message) }
  echo := shownText

end RequestWriter.CommandLine
