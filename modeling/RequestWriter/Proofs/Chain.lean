import RequestWriter.Checked
import RequestWriter.Log
import Mathlib.Data.List.Forall2

/-!
# Chains of operations that can fail

A chain gives a value exactly when each of its operations does, and an operation that is done for
each item of a list gives the values item by item.
-/

namespace RequestWriter

variable {α β : Type}

@[simp] theorem Logged.result_liftM (x : Except Fault α) : (liftM x : Logged α).result = x := rfl

@[simp] theorem Logged.ok_bind (a : α) (f : α → Except Fault β) : (.ok a >>= f) = f a := rfl

@[simp] theorem Logged.error_bind (fault : Fault) (f : α → Except Fault β) :
    (.error fault >>= f) = .error fault := rfl

/-- A last operation that leaves no records adds none. -/
theorem Logged.records_bind_liftM (x : Logged α) (f : α → Except Fault β) :
    (x >>= fun a => (liftM (f a) : Logged β)).records = x.records := by
  obtain ⟨records, result⟩ := x
  cases result with
  | ok a => exact List.append_nil _
  | error fault => rfl

namespace Chain

theorem ok_of_toOption {ε : Type} {x : Except ε α} {a : α} (h : x.toOption = some a) :
    x = .ok a := by
  cases x <;> cases h
  rfl

theorem bind_eq_ok_iff {ε : Type} {x : Except ε α} {f : α → Except ε β} {b : β} :
    x >>= f = .ok b ↔ ∃ a, x = .ok a ∧ f a = .ok b := by
  cases x with
  | ok a =>
    refine ⟨fun h => ⟨a, rfl, h⟩, ?_⟩
    rintro ⟨_, ⟨⟩, h⟩
    exact h
  | error fault => exact ⟨(nomatch ·), fun ⟨_, h, _⟩ => nomatch h⟩

theorem bind_eq_error_iff {ε : Type} {x : Except ε α} {f : α → Except ε β} {fault : ε} :
    x >>= f = .error fault ↔ x = .error fault ∨ ∃ a, x = .ok a ∧ f a = .error fault := by
  cases x with
  | ok a =>
    refine ⟨fun h => .inr ⟨a, rfl, h⟩, ?_⟩
    rintro (h | ⟨_, ⟨⟩, h⟩)
    · cases h
    · exact h
  | error found =>
    refine ⟨fun h => .inl (congrArg Except.error (Except.error.inj h)), ?_⟩
    rintro (h | ⟨_, h, -⟩)
    · exact congrArg Except.error (Except.error.inj h)
    · cases h

theorem map_eq_ok_iff {ε : Type} {x : Except ε α} {f : α → β} {b : β} :
    f <$> x = .ok b ↔ ∃ a, x = .ok a ∧ f a = b := by
  cases x with
  | ok a =>
    refine ⟨fun h => ⟨a, rfl, Except.ok.inj h⟩, ?_⟩
    rintro ⟨_, ⟨⟩, rfl⟩
    rfl
  | error fault => exact ⟨(nomatch ·), fun ⟨_, h, _⟩ => nomatch h⟩

theorem mapM_eq_ok_iff {f : α → Except Fault β} {xs : List α} {ys : List β} :
    xs.mapM f = .ok ys ↔ List.Forall₂ (fun x y => f x = .ok y) xs ys := by
  induction xs generalizing ys with
  | nil => cases ys <;> simp [pure, Except.pure]
  | cons x xs ih =>
    simp only [List.mapM_cons, bind_eq_ok_iff, ih]
    constructor
    · rintro ⟨y, first, rest, others, ⟨⟩⟩
      exact .cons first others
    · rintro (_ | ⟨first, others⟩)
      exact ⟨_, first, _, others, rfl⟩

end Chain

namespace Checked

theorem map_eq_ok_iff {c : Checked α} {f : α → β} {b : β} :
    f <$> c = .ok b ↔ ∃ a, c = .ok a ∧ f a = b := by
  cases c with
  | ok a =>
    refine ⟨fun h => ⟨a, rfl, Checked.ok.inj h⟩, ?_⟩
    rintro ⟨_, ⟨⟩, rfl⟩
    rfl
  | bad issues => exact ⟨(nomatch ·), fun ⟨_, h, _⟩ => nomatch h⟩

theorem seq_eq_ok_iff {f : Checked (α → β)} {c : Checked α} {b : β} :
    f <*> c = .ok b ↔ ∃ g a, f = .ok g ∧ c = .ok a ∧ g a = b := by
  cases f with
  | bad issues => cases c <;> exact ⟨(nomatch ·), fun ⟨_, _, h, _⟩ => nomatch h⟩
  | ok g =>
    cases c with
    | bad issues => exact ⟨(nomatch ·), fun ⟨_, _, _, h, _⟩ => nomatch h⟩
    | ok a =>
      refine ⟨fun h => ⟨g, a, rfl, rfl, Checked.ok.inj h⟩, ?_⟩
      rintro ⟨_, _, ⟨⟩, ⟨⟩, rfl⟩
      rfl

theorem toExcept_eq_ok_iff {c : Checked α} {model : Model} {a : α} :
    c.toExcept model = .ok a ↔ c = .ok a := by
  cases c <;> simp [toExcept]

end Checked

end RequestWriter
