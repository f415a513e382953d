import RequestWriter.Checked

/-!
# What a refusal is about

A record is refused with a list of issues, to which every field adds its own behind those of the
fields before it. So it does not matter how the fields are grouped, and what a field adds is about
the place at which it was checked, or about a place inside.
-/

namespace RequestWriter

variable {α β : Type} {p q : Issue → Prop} {c : Checked α} {f : Checked (α → β)}

namespace Checked

/-- Fields may be grouped in every way that keeps their order. -/
instance : LawfulApplicative Checked where
  map_const := rfl
  map_pure _ _ := rfl
  id_map c := by cases c <;> rfl
  seqLeft_eq a b := by cases a <;> cases b <;> rfl
  seqRight_eq a b := by cases a <;> cases b <;> rfl
  pure_seq _ c := by cases c <;> rfl
  seq_pure g _ := by cases g <;> rfl
  seq_assoc c g h := by
    cases h with
    | ok h => cases g <;> cases c <;> rfl
    | bad i =>
      cases g with
      | ok g => cases c <;> rfl
      | bad j =>
        cases c with
        | ok a => rfl
        | bad k => exact congrArg Checked.bad (List.append_assoc i j k).symm

/-- A refusal names an issue, and all that it names are of this kind. -/
def Blames (c : Checked α) (p : Issue → Prop) : Prop :=
  match c with
  | .ok _ => True
  | .bad issues => issues ≠ [] ∧ ∀ issue ∈ issues, p issue

theorem blames_issue {location : List String} {kind : IssueKind} (h : p ⟨location, kind⟩) :
    (issue location kind : Checked α).Blames p :=
  ⟨List.cons_ne_nil _ _, List.forall_mem_singleton.mpr h⟩

theorem Blames.imp (h : c.Blames p) (imp : ∀ issue, p issue → q issue) : c.Blames q := by
  cases c with
  | ok a => trivial
  | bad issues => exact ⟨h.1, fun issue mem => imp issue (h.2 issue mem)⟩

theorem Blames.map (g : α → β) (h : c.Blames p) : (g <$> c).Blames p := by
  cases c <;> exact h

theorem Blames.seq (hf : f.Blames p) (hc : c.Blames p) : (f <*> c).Blames p := by
  cases f with
  | ok g => cases c <;> exact hc
  | bad issues =>
    cases c with
    | ok a => exact hf
    | bad issues' =>
      exact ⟨List.append_ne_nil_of_left_ne_nil hf.1 _, List.forall_mem_append.mpr ⟨hf.2, hc.2⟩⟩

theorem blames_all {check : α → Checked β} {parts : List α} (h : ∀ a ∈ parts, (check a).Blames p) :
    (all check parts).Blames p := by
  induction parts with
  | nil => trivial
  | cons a parts ih =>
    rw [List.forall_mem_cons] at h
    exact (h.1.map List.cons).seq (ih h.2)

end Checked

namespace Field

/-- The check blames the place of its value, or a place inside. -/
def Check.IsLocal (check : Check α) : Prop :=
  ∀ place v, (check place v).Blames (place <+: ·.location)

theorem isLocal_text : text.IsLocal := by
  intro place v
  unfold text
  split
  · trivial
  · split
    · trivial
    · exact Checked.blames_issue (List.prefix_refl place)
  · exact Checked.blames_issue (List.prefix_refl place)

theorem isLocal_choice (ofName? : String → Option α) : (choice ofName?).IsLocal := by
  intro place v
  unfold choice
  split
  · split
    · trivial
    · exact Checked.blames_issue (List.prefix_refl place)
  · exact Checked.blames_issue (List.prefix_refl place)

theorem isLocal_list {check : Check α} (h : check.IsLocal) : (list check).IsLocal := by
  intro place v
  unfold list
  split
  · refine Checked.blames_all fun item _ => (h _ _).imp fun issue inside => ?_
    exact (List.prefix_append place _).trans inside
  · exact Checked.blames_issue (List.prefix_refl place)

/-- A field is blamed under its name. -/
theorem blames_optional {check : Check α} (h : check.IsLocal) (name : String) (default : α)
    (data : List (Scalar × Value)) :
    (optional name default check data).Blames (·.location.head? = some name) := by
  unfold optional
  split
  · refine (h [name] _).imp fun issue inside => ?_
    obtain ⟨rest, spelled⟩ := inside
    rw [← spelled]
    rfl
  · trivial

end Field

end RequestWriter
