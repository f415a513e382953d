import RequestWriter.CommandLine.Command

/-!
# Toolkits

What the program asks of the library that reads its command line: the command behind the words, and
what is seen of a text that is shown and of a run that ends early.
-/

namespace RequestWriter.CommandLine

/-- The end of a run before its command is done, with what the two streams show of it. -/
structure Stop where
  exitCode : Nat
  out : String := ""
  err : String := ""
  deriving DecidableEq, Repr

/-- The words of a run. What they ask for is looked at when the configuration is loaded. -/
structure Invocation where
  verbose : Bool
  configuration : Option Path
  command : Except Stop Command

class Toolkit where
  read : Workspace → List String → Except Stop Invocation
  /-- The end of a run that asks for something that is not possible. -/
  misuse : Scope → String → Stop
  /-- The end of a run that fails with a message. -/
  failure : String → Stop
  /-- What the stream shows of a text. -/
  echo : String → String

end RequestWriter.CommandLine
