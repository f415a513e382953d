import RequestWriter.CommandLine.Outcome
import RequestWriter.CommandLine.Reach
import RequestWriter.CommandLine.Reading
import RequestWriter.Snippet.Closed
import RequestWriter.Yaml.Load

/-!
# The program

Takes in the files that a run may look at, runs, and puts what has changed back in place. All that
is decided is decided by `CommandLine.run`.
-/

namespace RequestWriter.Program

/-- The name of a place for the system. -/
def placeName (place : Location) : String := "/" ++ Text.join "/" place

/-- What the system has at a place. A directory can be opened like a file, but not read like one. -/
def nodeAt (place : Location) : IO (Option FileNode) := do
  let name := placeName place
  match ← (IO.FS.readBinFile name).toBaseIO with
  | .ok content => return some (.file content.toList)
  | .error _ =>
    match ← (IO.FS.Handle.mk name .read).toBaseIO with
    | .ok _ => return some .directory
    | .error _ => return none

def settings : IO (List (String × String)) := do
  let names := [Configuration.fileVariable, Configuration.serverVariable]
  let values ← names.mapM fun name => IO.getEnv name
  return (names.zip values).filterMap fun (name, value) => value.map (name, ·)

/-- The surroundings of a run with these arguments. -/
def surroundings (args : List String) : IO Workspace := do
  let name := toString (← IO.currentDir)
  let empty : Workspace := ⟨⟨[], (Path.ofText name).parts⟩, name, ← settings⟩
  (CommandLine.reach empty args).foldlM (fun ws place => do
    match ← nodeAt place with
    | some node => return { ws with tree := ws.tree.put place node }
    | none => return ws) empty

/-- Puts a node in place unless it was there before. -/
def store (before : Workspace) (entry : Location × FileNode) : IO Unit := do
  unless before.tree.node? entry.1 == some entry.2 do
    match entry.2 with
    | .directory => IO.FS.createDirAll (placeName entry.1)
    | .file content => IO.FS.writeBinFile (placeName entry.1) ⟨content.toArray⟩

end RequestWriter.Program

open RequestWriter in
def main (args : List String) : IO UInt32 := do
  let before ← Program.surroundings args
  let outcome := CommandLine.run before args
  outcome.workspace.tree.nodes.forM (Program.store before)
  IO.print outcome.out
  IO.eprint outcome.err
  if let some fault := outcome.fault then
    IO.eprintln ("Aborted: " ++ fault.message?.getD "a value of an unexpected kind")
  return UInt32.ofNat outcome.exitCode
