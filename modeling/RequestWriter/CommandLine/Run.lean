import RequestWriter.CommandLine.Console
import RequestWriter.Api.Load
import RequestWriter.Configuration
import RequestWriter.Catalog
import RequestWriter.Url
import RequestWriter.Schema.Example

/-!
# Running commands

The four commands. A request comes from a URL with the values of its groups, or from an endpoint of
an API document; the last value of a repeated name counts.
-/

namespace RequestWriter.CommandLine

/-- The names and values of pairs, with the blanks around both dropped. -/
def splitPairs (s : Scope) (sep : Char) (what : String) :
    List String → Console (List (String × String))
  | [] => pure []
  | pair :: rest =>
    match Text.cut? sep pair.toList with
    | none =>
      Console.misuse s (invalidValue what ("expected NAME" ++ String.ofList [sep]
        ++ "VALUE, got " ++ Text.quoted pair))
    | some (name, value) => do
      let others ← splitPairs s sep what rest
      return (Text.strip (String.ofList name), Text.strip (String.ofList value)) :: others

/-- The values of a command by their names. -/
def paramValues (pairs : List (String × String)) : Url.Values :=
  (Entries.ofPairs pairs).map fun (name, value) => (name, Value.text value)

/-- The text of a server, which has to be one to stand in front of a path. -/
def serverText (server : Value) : Except Fault String :=
  match server with
  | .scalar (.text s) => .ok s
  | _ => .error .wrongKind

variable [Yaml.Loader]

/-- The URL of an endpoint of a document. -/
def documentUrl (s : Scope) (ws : Workspace) (c : Configuration) (document : Path)
    (method path : String) (values : Url.Values) : Console String := do
  let (doc, endpoints) ← Api.loadEndpoints ws document
  match Endpoint.find? endpoints method path with
  | none =>
    Console.misuse s ("No " ++ Text.upper method ++ " " ++ path ++ " in " ++ document.text)
  | some e =>
    let declared ← Logged.lift (Api.servers doc)
    let server ← Logged.lift (serverText (c.server declared))
    return Url.build (server ++ e.path) e.parameters values

def requestUrl (s : Scope) (ws : Workspace) (c : Configuration) (o : RequestOptions)
    (values : Url.Values) : Console String :=
  match o.document, o.url.filter (· != "") with
  | some document, _ =>
    match o.path.filter (· != "") with
    | none => Console.misuse s "--doc requires --path"
    | some path => documentUrl s ws c document o.method path values
  | none, some url => pure (Url.build url (Url.inferParameters url values) values)
  | none, none => Console.misuse s "Provide --url or --doc/--path"

/-- The credential that options give; an empty value is none. -/
def credential? (o : RequestOptions) : Option Credential :=
  (o.credentialValue.filter (· != "")).map fun value => ⟨o.credentialKind, value⟩

/-- The request that options ask for, with the headers that are sent. -/
def buildRequest (s : Scope) (ws : Workspace) (c : Configuration) (o : RequestOptions) :
    Console (Request × Headers) := do
  let params ← splitPairs s '=' "--param" o.params
  let url ← requestUrl s ws c o (paramValues params)
  let pairs ← splitPairs s ':' "--header" o.headers
  let r : Request := ⟨o.method, url, Entries.ofPairs pairs, o.data⟩
  return (r, Headers.prepare r.headers (credential? o))

def languageLine (spec : LanguageSpec) : String :=
  Text.padRight 12 spec.id ++ " " ++ Text.padRight 12 spec.displayName ++ " "
    ++ Text.join ", " spec.variants ++ (if spec.implemented then "" else " *")

def runLanguages : Console Unit := do
  Catalog.specs.forM fun spec => Console.put (languageLine spec)
  Console.put "(* listed only, no generator yet)"

/-- Fails if a snippet is not well formed. -/
def checkSnippet [Python.Parser] (snippet : Snippet) (whole : Bool) : Console Unit := do
  match ← Logged.lift (snippet.checked whole) with
  | none => return ()
  | some problem =>
    Console.halt (.failure ("Generated " ++ snippet.language ++ "/" ++ snippet.variant
      ++ " code is invalid: " ++ problem))

/-- Shows a request as code. An empty name of a language counts as none. -/
def runCode [Python.Parser] (ws : Workspace) (c : Configuration) (language variant : Option String)
    (check : Bool) (o : RequestOptions) : Console Unit := do
  let language := (language.filter (· != "")).getD c.defaultLanguage
  let (r, headers) ← buildRequest .code ws c o
  let (snippet, whole) ← Console.ofMarked fun mark =>
    Catalog.generate language variant (r.marked mark) headers
  if check then checkSnippet snippet whole
  if !whole then Console.halt (.defect .notEncodable)
  Console.put snippet.source

/-- The file for a command: the path that was asked for, with the suffix of the style if it has
none. -/
def outputPath (style : Shell.Style) (output : Path) : Except Fault Path :=
  if output.suffix = "" then
    match output.addSuffix? style.suffix with
    | some path => .ok path
    | none => .error .badValue
  else .ok output

/-- Writes a text to a file, in directories that are made where they are missing. -/
def save (ws : Workspace) (path : Path) (text : String) : Except Fault Workspace := do
  let ws ← ws.ensureDirectories path.parent
  ws.writeText path text

/-- Shows a request as a command, or writes it to a file. A command that holds a lone half is
noticed when the file is open already, so the file is left empty. -/
def runCurl (ws : Workspace) (c : Configuration) (style : Option Shell.Style)
    (output : Option Path) (o : RequestOptions) : Console Workspace := do
  let style := style.getD c.shellStyle
  let (r, headers) ← buildRequest .curl ws c o
  let (command, whole) ← Console.ofMarked fun mark =>
    Shell.format style (r.marked mark) headers
  match output with
  | none =>
    if !whole then Console.halt (.defect .notEncodable)
    Console.put command
    return ws
  | some output =>
    let path ← Logged.lift (outputPath style output)
    let ws ← Logged.lift (save ws path (if whole then command ++ "\n" else ""))
    if !whole then Console.halt (.broken .notEncodable ws)
    Console.put ("Saved " ++ style.mimeType ++ " command to " ++ path.text)
    return ws

def exampleText (target : Target) (doc : Document) : Logged String :=
  if target = .json then
    match Json.fault? doc.graph doc.root with
    | some fault => Logged.fail fault
    | none => pure (Json.indented doc.root)
  else Literal.serialize target doc 0 Literal.defaultMaxDepth

/-- The schemas of an endpoint that are shown, with their labels. -/
def labelledSchemas (responses : Bool) (e : Endpoint) : List (String × Value) :=
  (e.requestBody.map fun schema => ("request", schema)).toList
    ++ if responses then
      e.responses.filterMap fun (status, r) => r.schema.map fun schema => (status, schema)
    else []

def runExample (g : Graph) (target : Target) (label : String) (schema : Value) :
    Console Unit := do
  let v ← Schema.synthesize ⟨g, schema⟩
  let text ← exampleText target ⟨g, v⟩
  Console.put ("# " ++ label)
  Console.put text

/-- Whether an endpoint is asked for. An empty text asks for any. -/
def isWanted (method path : Option String) (e : Endpoint) : Bool :=
  (method.filter (· != "")).all (fun m => e.method == Text.upper m)
    && (path.filter (· != "")).all (fun p => e.path == p)

/-- Shows the examples of the endpoints of a document. -/
def runExamples (ws : Workspace) (document : Path) (method path : Option String)
    (target : Target) (responses : Bool) : Console Unit := do
  let (doc, endpoints) ← Api.loadEndpoints ws document
  let wanted := (endpoints.filter (isWanted method path)).filter fun e =>
    !(labelledSchemas responses e).isEmpty
  wanted.forM fun e => do
    Console.put ("## " ++ e.method ++ " " ++ e.path)
    (labelledSchemas responses e).forM fun (label, schema) =>
      runExample doc.graph target label schema
  if wanted.isEmpty then Console.put "No matching endpoints with body schemas."

/-- Runs a command. The workspace afterwards is the result. -/
def Command.run [Python.Parser] (ws : Workspace) (c : Configuration) : Command → Console Workspace
  | .languages => do
    runLanguages
    return ws
  | .code language variant check request => do
    runCode ws c language variant check request
    return ws
  | .curl style output request => runCurl ws c style output request
  | .examples document method path target responses => do
    runExamples ws document method path target responses
    return ws

/-- Runs what the words of a run ask for. The configuration is loaded before the command is looked
at. -/
def Invocation.run [Python.Parser] (ws : Workspace) (call : Invocation) :
    Console Workspace := do
  let c ← Configuration.load ws call.configuration
  let command ← Console.ofStop call.command
  command.run ws c

end RequestWriter.CommandLine
