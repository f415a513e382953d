import RequestWriter.Fault

/-!
# Logged computations

An operation leaves log records on its way and ends with a value or a fault; the records that were
left before a fault stay. The result of a chain of operations is the chain of their results, so a
statement about results never needs to look at the records.
-/

namespace RequestWriter

inductive LogLevel where
  | debug
  | warning
  deriving DecidableEq, Repr

def LogLevel.name : LogLevel → String
  | .debug => "DEBUG"
  | .warning => "WARNING"

/-- One log record: its level, the part of the program that wrote it, and its text. -/
structure LogRecord where
  level : LogLevel
  source : String
  text : String
  deriving DecidableEq, Repr

/-- The name under which every logger of the program is found. -/
def rootLogger : String := "request_snippets"

/-- The full name of a logger: a name that does not begin with the root is put below it. -/
def loggerName (name : String) : String :=
  if rootLogger.toList.isPrefixOf name.toList then name else rootLogger ++ "." ++ name

/-- The line that a record becomes on the error stream. -/
def LogRecord.line (r : LogRecord) : String :=
  r.level.name ++ " " ++ r.source ++ ": " ++ r.text

/-- The layout of the line of a record, in terms of the parts of a record. -/
def lineLayout : String := "%(levelname)s %(name)s: %(message)s"

structure LogSetup where
  /-- How many writers are installed. -/
  handlers : Nat
  level : LogLevel
  layout : String
  deriving DecidableEq, Repr

/-- The setup after logging was switched on, quietly or not: one writer, whatever was there
before. -/
def LogSetup.configure (verbose : Bool) : LogSetup :=
  ⟨1, if verbose then .debug else .warning, lineLayout⟩

/-- A value or a fault, with the records left on the way. -/
structure Logged (α : Type) where
  records : List LogRecord
  result : Except Fault α

namespace Logged

protected def pure {α : Type} (a : α) : Logged α := ⟨[], .ok a⟩

/-- Goes on after a value; a fault ends the chain. -/
protected def bind {α β : Type} (x : Logged α) (f : α → Logged β) : Logged β :=
  match x.result with
  | .ok a => ⟨x.records ++ (f a).records, (f a).result⟩
  | .error e => ⟨x.records, .error e⟩

instance : Monad Logged where
  pure := Logged.pure
  bind := Logged.bind

def fail {α : Type} (fault : Fault) : Logged α := ⟨[], .error fault⟩

def note (r : LogRecord) : Logged Unit := ⟨[r], .ok ()⟩

def lift {α : Type} (x : Except Fault α) : Logged α := ⟨[], x⟩

instance : MonadLift (Except Fault) Logged := ⟨lift⟩

@[simp] theorem result_pure {α : Type} (a : α) : (pure a : Logged α).result = .ok a := rfl

@[simp] theorem result_fail {α : Type} (fault : Fault) :
    (fail fault : Logged α).result = .error fault := rfl

@[simp] theorem result_note (r : LogRecord) : (note r).result = .ok () := rfl

@[simp] theorem result_lift {α : Type} (x : Except Fault α) : (lift x).result = x := rfl

@[simp] theorem result_bind {α β : Type} (x : Logged α) (f : α → Logged β) :
    (x >>= f).result = x.result >>= fun a => (f a).result := by
  obtain ⟨records, result⟩ := x
  cases result <;> rfl

end Logged

/-- What a walk over a value meets: something to record, or a fault that ends it. -/
inductive Step where
  | record (r : LogRecord)
  | fail (fault : Fault)
  deriving DecidableEq, Repr

namespace Step

/-- Follows the steps of a walk up to the first fault, and gives its value if there is none. -/
def play {α : Type} (value : α) : List Step → Logged α
  | [] => pure value
  | .record r :: rest => do
    Logged.note r
    play value rest
  | .fail fault :: _ => Logged.fail fault

/-- The fault of a step that is one. -/
def fault? : Step → Option Fault
  | .record _ => none
  | .fail fault => some fault

/-- A walk ends with the first of its faults, and with its value if it meets none. -/
theorem result_play {α : Type} (value : α) (steps : List Step) :
    (play value steps).result =
      match (steps.filterMap fault?).head? with
      | some fault => .error fault
      | none => .ok value := by
  induction steps with
  | nil => rfl
  | cons step rest ih =>
    cases step with
    | record r => exact ih
    | fail fault => rfl

/-- A fault that ends a walk is one of its steps. -/
theorem fail_mem_of_result_play {α : Type} {value : α} {steps : List Step} {fault : Fault}
    (h : (play value steps).result = .error fault) : .fail fault ∈ steps := by
  induction steps with
  | nil => cases h
  | cons step rest ih =>
    cases step with
    | record r => exact List.mem_cons_of_mem _ (ih h)
    | fail first =>
      cases h
      exact List.mem_cons_self

/-- A walk gives its value exactly when none of its steps is a fault. -/
theorem result_play_eq_ok_iff {α : Type} {value v : α} {steps : List Step} :
    (play value steps).result = .ok v ↔ v = value ∧ ∀ fault, .fail fault ∉ steps := by
  induction steps with
  | nil => simp [play, eq_comm]
  | cons step rest ih =>
    cases step with
    | record r =>
      have result : (play value (.record r :: rest)).result = (play value rest).result := rfl
      simp [result, ih]
    | fail fault =>
      refine ⟨(nomatch ·), fun h => ?_⟩
      exact absurd List.mem_cons_self (h.2 fault)

/-- A walk whose steps are all records gives its value. -/
theorem result_play_of_forall {α : Type} (value : α) (steps : List Step)
    (h : ∀ fault, Step.fail fault ∉ steps) : (play value steps).result = .ok value := by
  induction steps with
  | nil => rfl
  | cons step rest ih =>
    cases step with
    | record r => exact ih fun fault hf => h fault (List.mem_cons_of_mem _ hf)
    | fail fault => exact absurd (List.mem_cons_self ..) (h fault)

end Step

end RequestWriter
