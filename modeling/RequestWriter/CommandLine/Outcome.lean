import RequestWriter.CommandLine.Run

/-!
# Outcomes

What the surroundings see of a run: the exit code, the two streams, the fault if the program has a
defect, and the workspace afterwards. Of the records only warnings are shown, unless the user asks
for all of them.
-/

namespace RequestWriter.CommandLine

structure Outcome where
  exitCode : Nat
  out : String
  err : String
  fault : Option Fault
  workspace : Workspace
  deriving DecidableEq, Repr

def isShown (verbose : Bool) (r : LogRecord) : Bool := verbose || r.level == .warning

def Halt.fault? : Halt → Option Fault
  | .defect fault | .broken fault _ => some fault
  | _ => none

/-- The workspace that a halt leaves, if it is not the one in which the run began. -/
def Halt.left? : Halt → Option Workspace
  | .broken _ left => some left
  | _ => none

variable [Toolkit]

/-- How the run ends at a halt. -/
def Halt.stop : Halt → Stop
  | .stopped stop => stop
  | .misuse s text => Toolkit.misuse s text
  | .failure message => Toolkit.failure message
  | .defect _ | .broken _ _ => { exitCode := 1 }

/-- What is seen of a console that started in a workspace. -/
def outcome (ws : Workspace) (verbose : Bool) (x : Console Workspace) : Outcome :=
  let out := String.join (x.shown.map Toolkit.echo)
  let logged := String.join ((x.records.filter (isShown verbose)).map fun r => r.line ++ "\n")
  match x.result with
  | .ok after => ⟨0, out, logged, none, after⟩
  | .error halt =>
    ⟨halt.stop.exitCode, out ++ halt.stop.out, logged ++ halt.stop.err, halt.fault?,
      halt.left?.getD ws⟩

def run [Yaml.Loader] [Python.Parser] (ws : Workspace) (args : List String) : Outcome :=
  match Toolkit.read ws args with
  | .error stop => outcome ws false (Console.halt (.stopped stop))
  | .ok call => outcome ws call.verbose (call.run ws)

end RequestWriter.CommandLine
