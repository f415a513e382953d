import RequestWriter.Files.Workspace
import RequestWriter.Credential
import RequestWriter.Shell

/-!
# Commands

What a command line asks for, once all its words are understood.
-/

namespace RequestWriter.CommandLine

/-- The part of the program that a message about a command line is about. -/
inductive Scope where
  /-- The program itself. -/
  | program
  | languages
  | code
  | curl
  | examples
  deriving DecidableEq, Repr

/-- The options that describe a request, as they were given. -/
structure RequestOptions where
  url : Option String := none
  method : String := "GET"
  headers : List String := []
  data : Option String := none
  params : List String := []
  /-- The API document from which the endpoint is taken. -/
  document : Option Path := none
  path : Option String := none
  credentialKind : CredentialKind := .bearer
  credentialValue : Option String := none
  deriving DecidableEq, Repr

inductive Command where
  | languages
  | code (language variant : Option String) (check : Bool) (request : RequestOptions)
  | curl (style : Option Shell.Style) (output : Option Path) (request : RequestOptions)
  | examples (document : Path) (method path : Option String) (target : Target) (responses : Bool)
  deriving DecidableEq, Repr

/-- The words about a value that is not taken. -/
def invalidValue (what reason : String) : String := "Invalid value for " ++ what ++ ": " ++ reason

end RequestWriter.CommandLine
