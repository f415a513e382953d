import RequestWriter.CommandLine.Toolkit
import RequestWriter.Text.Marked
import RequestWriter.Log

/-!
# Consoles

A command shows lines, leaves log records, and ends with a value or halts. What was shown before it
halts stays.
-/

namespace RequestWriter.CommandLine

inductive Halt where
  /-- The words ask for no command. -/
  | stopped (stop : Stop)
  /-- The command asks for something that is not possible. -/
  | misuse (s : Scope) (text : String)
  /-- A foreseen failure, with its message. -/
  | failure (message : String)
  | defect (fault : Fault)
  /-- A defect that leaves a workspace in which something was written. -/
  | broken (fault : Fault) (left : Workspace)
  deriving DecidableEq, Repr

/-- The halt of a fault: a foreseen fault is a failure. -/
def Halt.ofFault (fault : Fault) : Halt :=
  match fault.message? with
  | some message => .failure message
  | none => .defect fault

/-- A value or a halt, with what was shown and recorded before. -/
structure Console (α : Type) where
  /-- The texts that were shown; a newline follows each. -/
  shown : List String
  records : List LogRecord
  result : Except Halt α

namespace Console

protected def pure {α : Type} (a : α) : Console α := ⟨[], [], .ok a⟩

/-- Goes on after a value; a halt ends the chain. -/
protected def bind {α β : Type} (x : Console α) (f : α → Console β) : Console β :=
  match x.result with
  | .ok a => ⟨x.shown ++ (f a).shown, x.records ++ (f a).records, (f a).result⟩
  | .error e => ⟨x.shown, x.records, .error e⟩

instance : Monad Console where
  pure := Console.pure
  bind := Console.bind

def halt {α : Type} (cause : Halt) : Console α := ⟨[], [], .error cause⟩

/-- Halts at a mistake in the command line. -/
def misuse {α : Type} (s : Scope) (text : String) : Console α := halt (.misuse s text)

def put (s : String) : Console Unit := ⟨[s], [], .ok ()⟩

/-- A logged operation as a part of a command. -/
def ofLogged {α : Type} (x : Logged α) : Console α :=
  ⟨[], x.records, x.result.mapError Halt.ofFault⟩

instance : MonadLift Logged Console := ⟨ofLogged⟩

/-- An outcome of reading words as a part of a command. -/
def ofStop {α : Type} (x : Except Stop α) : Console α := ⟨[], [], x.mapError Halt.stopped⟩

/-- A logged operation whose value may hold lone halves, and whether the value holds none. -/
def ofMarked {α : Type} [DecidableEq α] (x : Marked (Logged α)) : Console (α × Bool) := do
  let value ← x Marked.firstMark
  return (value, Marked.isWhole fun mark => (x mark).result.toOption)

@[simp] theorem result_pure {α : Type} (a : α) : (pure a : Console α).result = .ok a := rfl

@[simp] theorem result_halt {α : Type} (cause : Halt) :
    (halt cause : Console α).result = .error cause := rfl

@[simp] theorem result_put (s : String) : (put s).result = .ok () := rfl

@[simp] theorem result_ofLogged {α : Type} (x : Logged α) :
    (ofLogged x).result = x.result.mapError Halt.ofFault := rfl

@[simp] theorem result_bind {α β : Type} (x : Console α) (f : α → Console β) :
    (x >>= f).result = x.result >>= fun a => (f a).result := by
  obtain ⟨shown, records, result⟩ := x
  cases result <;> rfl

end Console

end RequestWriter.CommandLine
