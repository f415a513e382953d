import RequestWriter.Text.Basic
import RequestWriter.Text.Printable

/-!
# Words of a command line

Options and arguments as they are typed. A long option may have its value behind an equals sign, a
short one directly behind its letter; else the next word is the value, whatever it looks like. Two
hyphens alone end the options.
-/

namespace RequestWriter.CommandLine

inductive Expected where
  /-- The option is a switch. -/
  | nothing
  | text
  | choice (names : List String)
  | path
  /-- A path at which something is. -/
  | existingPath
  deriving DecidableEq, Repr

/-- An option that a command knows. -/
structure OptionSpec where
  /-- The long name, with its hyphens. -/
  name : String
  short : Option Char
  expected : Expected
  deriving DecidableEq, Repr

/-- An option that was given, with its value; a switch has an empty one. -/
structure Given where
  option : OptionSpec
  value : String
  deriving DecidableEq, Repr

/-- The words of a command line by what they are, each in order. -/
structure Words where
  options : List Given
  arguments : List String
  deriving DecidableEq, Repr

inductive WordFault where
  | unknownOption (name : String)
  | missingValue (name : String)
  | needlessValue (name : String)
  deriving DecidableEq, Repr

def WordFault.message : WordFault → String
  | .unknownOption name => "No such option: " ++ name
  | .missingValue name => "Option " ++ Text.quoted name ++ " requires an argument."
  | .needlessValue name => "Option " ++ Text.quoted name ++ " does not take a value."

inductive Meaning where
  | argument
  /-- Options that are complete. -/
  | complete (given : List Given)
  /-- Options, the last of which waits for its value. -/
  | waiting (given : List Given) (option : OptionSpec) (shown : String)
  deriving DecidableEq, Repr

/-- The meaning of the letters behind a single hyphen. -/
def shortMeaning (specs : List OptionSpec) : List Char → Except WordFault Meaning
  | [] => .ok (.complete [])
  | c :: rest =>
    match specs.find? fun s => s.short == some c with
    | none => .error (.unknownOption (String.ofList ['-', c]))
    | some s =>
      if s.expected = .nothing then
        (fun meaning =>
          match meaning with
          | .complete given => .complete (⟨s, ""⟩ :: given)
          | .waiting given option shown => .waiting (⟨s, ""⟩ :: given) option shown
          | .argument => .argument) <$> shortMeaning specs rest
      else if rest.isEmpty then .ok (.waiting [] s (String.ofList ['-', c]))
      else .ok (.complete [⟨s, String.ofList rest⟩])

/-- The name of a long option and the value behind its equals sign. -/
def cutValue (word : String) : String × Option String :=
  match Text.cut? '=' word.toList with
  | some (name, value) => (String.ofList name, some (String.ofList value))
  | none => (word, none)

/-- The meaning of a word that has the name of a long option. -/
def longMeaning (s : OptionSpec) (value : Option String) : Except WordFault Meaning :=
  match value with
  | none =>
    if s.expected = .nothing then .ok (.complete [⟨s, ""⟩]) else .ok (.waiting [] s s.name)
  | some value =>
    if s.expected = .nothing then .error (.needlessValue s.name)
    else .ok (.complete [⟨s, value⟩])

/-- The meaning of a word. A hyphen alone is an argument. -/
def meaning (specs : List OptionSpec) (word : String) : Except WordFault Meaning :=
  match word.toList with
  | '-' :: c :: rest =>
    let (name, value) := cutValue word
    match specs.find? fun s => s.name == name with
    | some s => longMeaning s value
    | none => if c = '-' then .error (.unknownOption name) else shortMeaning specs (c :: rest)
  | _ => .ok .argument

/-- Reads words. With `mixed` options may follow arguments; else everything from the first argument
on is left as it is. -/
def readWords (specs : List OptionSpec) (mixed : Bool) : List String → Except WordFault Words
  | [] => .ok ⟨[], []⟩
  | word :: rest =>
    if word = "--" then .ok ⟨[], rest⟩
    else
      match meaning specs word with
      | .error fault => .error fault
      | .ok .argument =>
        if mixed then
          (fun ws => { ws with arguments := word :: ws.arguments }) <$> readWords specs mixed rest
        else .ok ⟨[], word :: rest⟩
      | .ok (.complete given) =>
        (fun ws => { ws with options := given ++ ws.options }) <$> readWords specs mixed rest
      | .ok (.waiting given option shown) =>
        match rest with
        | [] => .error (.missingValue shown)
        | value :: rest =>
          (fun ws => { ws with options := given ++ ⟨option, value⟩ :: ws.options })
            <$> readWords specs mixed rest

namespace Words

def values (ws : Words) (name : String) : List String :=
  (ws.options.filter fun g => g.option.name == name).map Given.value

def value? (ws : Words) (name : String) : Option String := (ws.values name).getLast?

def has (ws : Words) (name : String) : Bool := !(ws.values name).isEmpty

/-- The options that were given, each once, at the place of the first time with the last value. -/
def settled (ws : Words) : List Given :=
  (ws.options.foldl (fun seen g =>
    if seen.any fun s => s.name == g.option.name then seen else seen ++ [g.option]) []).map
      fun s => ⟨s, (ws.value? s.name).getD ""⟩

end Words

end RequestWriter.CommandLine
