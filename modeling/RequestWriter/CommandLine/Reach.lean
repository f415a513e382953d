import RequestWriter.Shell
import RequestWriter.Configuration

/-!
# The reach of a run

The places that a run may look at or write to, told from its words before any of them is understood.
A place too many does no harm, so every word counts as the name of a file, and so does what is
written behind an equals sign or attached to a short option.
-/

namespace RequestWriter

/-- The place that parts lead to from a place, as they are spelled. -/
def Location.follow (start : Location) (parts : List String) : Location :=
  parts.foldl (fun place part => if part = ".." then place.dropLast else place ++ [part]) start

/-- The places on the way along a path and at its end. -/
def Workspace.way (ws : Workspace) (p : Path) : List Location :=
  (List.range (p.parts.length + 1)).map fun n => Location.follow (ws.start p) (p.parts.take n)

namespace CommandLine

/-- The texts in a word that may name a file. -/
def namesIn (word : String) : List String :=
  let cs := word.toList
  let behind := (cs.dropWhile (· != '=')).drop 1
  let attached := if word.startsWith "-" then cs.drop 2 else []
  word :: ([behind, attached].filter fun part => !part.isEmpty).map String.ofList

/-- A path together with the paths that the suffixes of commands make of it. -/
def withSuffixes (p : Path) : List Path :=
  p :: Shell.Style.all.filterMap fun style => p.addSuffix? style.suffix

/-- The places that a run may look at or write to. -/
def reach (ws : Workspace) (args : List String) : List Location :=
  let names := args.flatMap namesIn ++ (ws.setting? Configuration.fileVariable).toList
    ++ [Configuration.fileName]
  (names.flatMap fun name => (withSuffixes (Path.ofText name)).flatMap ws.way).eraseDups

end CommandLine

end RequestWriter
