import RequestWriter.Proofs.Chain
import RequestWriter.Proofs.Files.Saving

/-!
# What a reading depends on

A file is read by walking to it. The walk asks at each place on the way whether a directory is
there, and the reading asks what is at the end. Nothing else of a tree is looked at, so two trees
that agree in this cannot be told apart by reading the file.
-/

namespace RequestWriter

/-- Whether the node is a directory. -/
def FileNode.isDirectory : FileNode → Bool
  | .directory => true
  | .file _ => false

namespace FileTree

variable {t t' : FileTree} {start place : Location} {parts : List String} {node : FileNode}

/-- At the end of the walk the two trees have the same, and on the way to it they have directories
at the same places and files at the same places. What the files on the way hold does not count. -/
structure Alike (t t' : FileTree) (start : Location) (parts : List String) : Prop where
  way : ∀ place ∈ Location.passed start parts,
    (t'.node? place).map FileNode.isDirectory = (t.node? place).map FileNode.isDirectory
  target : t'.node? (Location.reached start parts) = t.node? (Location.reached start parts)

/-- A part leads on from a directory, whatever the files hold. -/
theorem step_eq (t : FileTree) (place : Location) (part : String) :
    t.step place part =
      match (t.node? place).map FileNode.isDirectory with
      | none => .error .notFound
      | some false => .error .notDirectory
      | some true => .ok (place.next part) := by
  cases here : t.node? place with
  | none =>
    rw [step, here]
    rfl
  | some node =>
    cases node with
    | file content =>
      rw [step, here]
      rfl
    | directory => exact step_of_directory part here

theorem step_eq_ok {part : String} {after : Location} (h : t.step place part = .ok after) :
    after = place.next part := by
  rw [step_eq] at h
  split at h
  · cases h
  · cases h
  · exact (Except.ok.inj h).symm

/-- A walk depends on nothing but the way. -/
theorem walk_congr (way : ∀ place ∈ Location.passed start parts,
      (t'.node? place).map FileNode.isDirectory = (t.node? place).map FileNode.isDirectory) :
    t'.walk start parts = t.walk start parts := by
  induction parts generalizing start with
  | nil => rfl
  | cons part parts ih =>
    obtain ⟨here, others⟩ := List.forall_mem_cons.mp way
    rw [walk_cons, walk_cons, step_eq t', here, ← step_eq]
    cases stepped : t.step start part with
    | error fault => rfl
    | ok after =>
      obtain rfl := step_eq_ok stepped
      exact ih others

theorem walk_eq_ok_iff : t.walk start parts = .ok place ↔
    t.Open (Location.passed start parts) ∧ place = Location.reached start parts := by
  constructor
  · intro h
    by_cases isOpen : t.Open (Location.passed start parts)
    · exact ⟨isOpen, Except.ok.inj (h.symm.trans (walk_of_open isOpen))⟩
    · rcases walk_error isOpen with ⟨-, walk⟩ | ⟨-, walk⟩ <;> rw [walk] at h <;> cases h
  · rintro ⟨isOpen, rfl⟩
    exact walk_of_open isOpen

/-- Something is found where the way is open and something is at its end. -/
theorem find_eq_ok_iff : t.find start parts = .ok node ↔
    t.Open (Location.passed start parts) ∧ t.node? (Location.reached start parts) = some node := by
  rw [find, Chain.bind_eq_ok_iff]
  simp only [walk_eq_ok_iff]
  constructor
  · rintro ⟨_, ⟨isOpen, rfl⟩, there⟩
    refine ⟨isOpen, ?_⟩
    cases here : t.node? (Location.reached start parts) with
    | none =>
      rw [here] at there
      cases there
    | some found =>
      rw [here] at there
      rw [Except.ok.inj there]
  · rintro ⟨isOpen, there⟩
    refine ⟨_, ⟨isOpen, rfl⟩, ?_⟩
    rw [there]
    rfl

namespace Alike

theorem find_eq (h : t.Alike t' start parts) : t'.find start parts = t.find start parts := by
  unfold find
  rw [walk_congr h.way]
  cases walked : t.walk start parts with
  | error fault => rfl
  | ok place =>
    obtain ⟨-, rfl⟩ := walk_eq_ok_iff.mp walked
    dsimp only [bind, Except.bind]
    rw [h.target]

theorem read_eq (h : t.Alike t' start parts) : t'.read start parts = t.read start parts := by
  rw [read, read, h.find_eq]

end Alike

end FileTree

end RequestWriter
