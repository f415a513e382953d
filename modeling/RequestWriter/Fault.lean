import RequestWriter.Text.Printable
import RequestWriter.Text.Basic

/-!
# Faults

Every way in which an operation of the library can fail, by its cause. The faults of the first group
are foreseen: they have a message for the user. The others say which assumption about a loosely
structured value was broken first; callers that promise well formed values never meet them.
-/

namespace RequestWriter

/-- The reasons for which a file cannot be used. -/
inductive FileFault where
  | notFound
  | notDirectory
  | isDirectory
  | exists
  deriving DecidableEq, Repr

/-- The system's number and words for the reason. -/
def FileFault.words : FileFault → String
  | .notFound => "[Errno 2] No such file or directory"
  | .notDirectory => "[Errno 20] Not a directory"
  | .isDirectory => "[Errno 21] Is a directory"
  | .exists => "[Errno 17] File exists"

/-- The reason with the path that was used. -/
def FileFault.message (fault : FileFault) (path : String) : String :=
  fault.words ++ ": " ++ Text.quoted path

/-- The records whose fields are checked when they are read from loose data. -/
inductive Model where
  | request
  | credential
  | parameter
  | endpoint
  | configuration
  | snippet
  deriving DecidableEq, Repr

inductive IssueKind where
  | missing
  | notText
  | notUtf8
  | notMapping
  | notList
  | notChoice
  | notBool
  | unreadableBool
  deriving DecidableEq, Repr

/-- A fault of one field: where it is and what it is. -/
structure Issue where
  location : List String
  kind : IssueKind
  deriving DecidableEq, Repr

inductive DocumentFault where
  | unreadable (path : String) (reason : FileFault)
  | unparsable (path : String)
  | notApi (path : String)
  deriving DecidableEq, Repr

def DocumentFault.message : DocumentFault → String
  | .unreadable path reason => "Cannot read " ++ path ++ ": " ++ reason.message path
  | .unparsable path => "Cannot parse " ++ path
  | .notApi path => path ++ " is not an OpenAPI document"

inductive ConfigFault where
  | unreadable (path : String) (reason : FileFault)
  | unparsable (path : String)
  | notMapping (path : String)
  | invalid (issues : List Issue)
  deriving DecidableEq, Repr

def ConfigFault.message : ConfigFault → String
  | .unreadable path reason => "Cannot load " ++ path ++ ": " ++ reason.message path
  | .unparsable path => "Cannot load " ++ path
  | .notMapping path => path ++ " must contain a mapping"
  | .invalid _ => "Invalid configuration"

inductive Fault where
  /-- A language or a literal dialect that nobody has described. -/
  | unsupportedLanguage (language : String) (available : List String)
  /-- A language of the catalog for which no code can be written yet. -/
  | notImplemented (language : String)
  | document (cause : DocumentFault)
  | config (cause : ConfigFault)
  /-- A record whose fields do not have the types that it asks for. -/
  | invalid (model : Model) (issues : List Issue)
  /-- A shell style that does not exist, with the spelling of what was given. -/
  | unknownStyle (spelling : String)
  /-- A value was asked for something that values of its kind do not offer. -/
  | lacksOperation
  /-- A value of the wrong kind was iterated, joined, indexed, called, or used as a key. -/
  | wrongKind
  /-- A key that was taken for granted is absent. -/
  | missingKey
  /-- A value of the right kind that cannot be converted. -/
  | badValue
  /-- A position outside a text. -/
  | outOfRange
  /-- A number too large for a character code. -/
  | tooLarge
  /-- A file that is not UTF-8. -/
  | notUtf8
  /-- A text with half of a surrogate pair, which has no form in UTF-8. -/
  | notEncodable
  /-- A text that is nested too deep for the interpreter. -/
  | tooDeep
  /-- A file that cannot be written. -/
  | file (reason : FileFault)
  deriving DecidableEq, Repr

/-- The list of languages after an unsupported one, if there is a list. -/
def availableText (available : List String) : String :=
  if available.isEmpty then "" else ". Available: " ++ Text.join ", " available

def Fault.message? : Fault → Option String
  | .unsupportedLanguage language available =>
    some ("Unsupported language: " ++ language ++ availableText available)
  | .notImplemented language => some ("Generator not implemented for language: " ++ language)
  | .document cause => some cause.message
  | .config cause => some cause.message
  | _ => none

/-- The words about a style that does not exist. -/
def unknownStyleMessage (spelling : String) : String :=
  spelling ++ " is not a valid ShellStyle"

end RequestWriter
