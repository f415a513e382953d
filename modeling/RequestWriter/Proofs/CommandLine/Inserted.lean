import RequestWriter.Proofs.CommandLine.Words
import RequestWriter.Proofs.Chain
import Mathlib.Data.List.Induction

/-!
# One option more

An option with a value can be put among the words of a command line wherever a word of its own can
stand: not behind an option that waits for its value, and not behind two hyphens that end the
options. The words are read as before, with the option in its place. So nothing about the others
changes, and if the option takes any value, nothing about what is wrong with them.
-/

namespace RequestWriter.CommandLine

section Meaning

variable {scope : Scope} {s : OptionSpec} {value : String}

end Meaning

section Reading

variable {scope : Scope} {s : OptionSpec} {value : String} {args args' : List String}

end Reading

section Known

variable {specs : List OptionSpec} {m : Meaning} {words : Words} {args : List String}

/-- The options that a word gives. -/
def Meaning.options : Meaning → List OptionSpec
  | .argument => []
  | .complete given => given.map Given.option
  | .waiting given option _ => given.map Given.option ++ [option]

end Known

namespace Words

variable {words : Words} {g : Given} {name : String} {n : Nat}

/-- The options that were given, each at the place of the first time. -/
def firsts (options : List Given) : List OptionSpec :=
  options.foldl (fun seen g =>
    if seen.any fun s => s.name == g.option.name then seen else seen ++ [g.option]) []

end Words

namespace Scope

variable {scope : Scope} {s : OptionSpec} {value : String} {args args' : List String}

end Scope

end RequestWriter.CommandLine
