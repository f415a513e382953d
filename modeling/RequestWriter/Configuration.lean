import RequestWriter.Files.Workspace
import RequestWriter.Yaml.Loader
import RequestWriter.Checked
import RequestWriter.Credential
import RequestWriter.Shell
import RequestWriter.Log

/-!
# Configuration

What a site sets for its page: the server of the API, the kinds of credentials on offer, and what is
preselected. It is read from the file that was asked for, else from the file that a variable names,
else from the usual file of the working directory if it is there. A variable may set the server; it
wins over the file and is checked like it.
-/

namespace RequestWriter

structure Configuration where
  apiServer : String := ""
  apiServers : List String := []
  credentialKinds : List CredentialKind := CredentialKind.all
  defaultLanguage : String := "javascript"
  shellStyle : Shell.Style := .multiline
  deriving DecidableEq, Repr

namespace Configuration

/-- The configuration of a site that sets nothing. -/
def usual : Configuration := {}

def check (data : List (Scalar × Value)) : Checked Configuration :=
  Configuration.mk <$> Field.optional "api_server" usual.apiServer Field.text data
    <*> Field.optional "api_servers" usual.apiServers (Field.list Field.text) data
    <*> Field.optional "auth_types" usual.credentialKinds
      (Field.list (Field.choice CredentialKind.ofName?)) data
    <*> Field.optional "default_language" usual.defaultLanguage Field.text data
    <*> Field.optional "shell_style" usual.shellStyle (Field.choice Shell.Style.ofName?) data

/-- The configuration that a mapping describes. -/
def ofEntries (entries : List (Scalar × Value)) : Except Fault Configuration := do
  let data ← Field.ofMapping (.mapping entries)
  match check data with
  | .ok c => return c
  | .bad issues => .error (.config (.invalid issues))

def fileName : String := "request_snippets.yml"

def fileVariable : String := "REQUEST_SNIPPETS_CONFIG"

def serverVariable : String := "REQUEST_SNIPPETS_API_SERVER"

/-- The file from which a configuration is read. -/
structure Source where
  start : Location
  parts : List String
  /-- The name under which messages speak of the file. -/
  name : String
  deriving DecidableEq, Repr

def Source.ofPath (ws : Workspace) (path : Path) : Source :=
  ⟨ws.start path, path.parts, path.text⟩

/-- The usual file of the working directory. -/
def Source.usual (ws : Workspace) : Source :=
  ⟨ws.directory, [fileName], ws.directoryName ++ "/" ++ fileName⟩

/-- Whether something is there under the name of a source. -/
def Source.exists (ws : Workspace) (s : Source) : Bool := (ws.tree.find s.start s.parts).toBool

/-- The path that a text asks for; an empty text asks for none. -/
def explicitPath? (s : String) : Option Path := if s = "" then none else some (Path.ofText s)

/-- The file to read, if there is one. -/
def source? (ws : Workspace) (explicit : Option Path) : Option Source :=
  match explicit, ws.setting? fileVariable with
  | some path, _ => some (.ofPath ws path)
  | none, some path => some (.ofPath ws (Path.ofText path))
  | none, none =>
    let usual := Source.usual ws
    if usual.exists ws then some usual else none

/-- The record of a file that was read. -/
def loadingRecord (s : Source) : LogRecord :=
  ⟨.debug, "request_snippets.config", "Loaded config from " ++ s.name⟩

/-- The entries with the server that a variable sets. -/
def overrideServer (server : Option String) (entries : List (Scalar × Value)) :
    List (Scalar × Value) :=
  match server with
  | some url => Entries.put (.text "api_server") (Value.text url) entries
  | none => entries

section Loading

variable [Yaml.Loader]

/-- The entries in the text of a file. A value that counts as not given holds none. -/
def entriesOfText (name text : String) : Except Fault (List (Scalar × Value)) :=
  match Yaml.Loader.load text with
  | .error refusal => .error (refusal.fault (.config (.unparsable name)))
  | .ok doc =>
    if doc.root.truthy then
      match doc.root with
      | .mapping entries => .ok entries
      | _ => .error (.config (.notMapping name))
    else .ok []

def entriesOfFile (ws : Workspace) (s : Source) : Except Fault (List (Scalar × Value)) := do
  let text ← ws.readText s.start s.parts fun reason => .config (.unreadable s.name reason)
  entriesOfText s.name text

/-- The entries of the file to read; none without a file. -/
def entries (ws : Workspace) : Option Source → Logged (List (Scalar × Value))
  | none => pure []
  | some s => do
    let found ← entriesOfFile ws s
    Logged.note (loadingRecord s)
    return found

def load (ws : Workspace) (explicit : Option Path) : Logged Configuration := do
  let found ← entries ws (source? ws explicit)
  ofEntries (overrideServer (ws.setting? serverVariable) found)

end Loading

/-- The first server that counts as given: the configured one, one of the configured ones, or one
that a document declares. -/
def server (c : Configuration) (declared : List Value) : Value :=
  (((Value.text c.apiServer :: c.apiServers.map Value.text) ++ declared).find?
    Value.truthy).getD (Value.text "")

/-- The first server, with declared ones that may be no list. -/
def serverLoose (c : Configuration) (declared : Value) : Except Fault Value :=
  match declared with
  | .list urls => .ok (c.server urls)
  | v => if v.truthy then .error .wrongKind else .ok (c.server [])

end Configuration

end RequestWriter
