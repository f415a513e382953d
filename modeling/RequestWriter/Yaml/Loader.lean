import RequestWriter.Value
import RequestWriter.Fault

/-!
# Loaders of YAML

What the program asks of the library that reads YAML: the document in a text, or why there is none.
Whoever loads a text announces one that is not well formed; other ways to fail go through.
-/

namespace RequestWriter.Yaml

inductive Refusal where
  /-- The text is no YAML, or is none that may be loaded. -/
  | malformed
  /-- The library breaks down over the text. That is no fault which anybody foresees. -/
  | broken (fault : Fault) (unforeseen : fault.message? = none)
  deriving DecidableEq, Repr

/-- The fault of a refusal. `announced` is how the caller reports a text that is not well formed. -/
def Refusal.fault (announced : Fault) : Refusal → Fault
  | .malformed => announced
  | .broken fault _ => fault

/-- A library that loads YAML. A set counts as the list of its members, and a list of pairs as a
list of lists. -/
class Loader where
  load : String → Except Refusal Document

end RequestWriter.Yaml
