import RequestWriter.Text.Basic

/-!
# Line ends

What reading a file does to its line ends, part by part. Only a return at the end of one part and a
newline at the front of the next are read together.
-/

namespace RequestWriter.Text

variable {a b cs : List Char}

theorem unifyLineEnds_cons {c : Char} (plain : c ≠ '\r') (cs : List Char) :
    unifyLineEnds (c :: cs) = c :: unifyLineEnds cs := by
  rw [unifyLineEnds]
  · intro rest pair
    exact fun _ => plain pair
  · exact plain

theorem unifyLineEnds_return_cons (other : cs.head? ≠ some '\n') :
    unifyLineEnds ('\r' :: cs) = '\n' :: unifyLineEnds cs := by
  rw [unifyLineEnds]
  rintro rest rfl
  exact other rfl

theorem unifyLineEnds_return (cs : List Char) : ∃ ds, unifyLineEnds ('\r' :: cs) = '\n' :: ds := by
  by_cases newline : cs.head? = some '\n'
  · obtain ⟨rest, rfl⟩ : ∃ rest, cs = '\n' :: rest := List.head?_eq_some_iff.mp newline
    exact ⟨_, rfl⟩
  · exact ⟨_, unifyLineEnds_return_cons newline⟩

/-- Parts are read one by one, unless the two halves of one line end are parted. -/
theorem unifyLineEnds_append (seam : a.getLast? ≠ some '\r' ∨ b.head? ≠ some '\n') :
    unifyLineEnds (a ++ b) = unifyLineEnds a ++ unifyLineEnds b := by
  have behind : ∀ {c : Char} {rest : List Char}, (c :: rest).getLast? ≠ some '\r' →
      rest.getLast? ≠ some '\r' := by
    intro c rest last eq
    rw [List.getLast?_cons, eq] at last
    exact last rfl
  fun_induction unifyLineEnds a with
  | case1 => rfl
  | case2 rest ih =>
    rw [List.cons_append, List.cons_append, unifyLineEnds,
      ih (seam.imp_left fun last => behind (behind last)), List.cons_append]
  | case3 rest other ih =>
    have apart : (rest ++ b).head? ≠ some '\n' := by
      cases rest with
      | nil => exact seam.elim (fun last => absurd rfl last) id
      | cons c rest =>
        rintro ⟨⟩
        exact other rest rfl
    rw [List.cons_append, unifyLineEnds_return_cons apart, ih (seam.imp_left behind),
      List.cons_append]
  | case4 c rest _ plain ih =>
    rw [List.cons_append, unifyLineEnds_cons plain, ih (seam.imp_left behind), List.cons_append]

/-- A text without returns stays as it is. -/
theorem unifyLineEnds_of_notMem (h : '\r' ∉ cs) : unifyLineEnds cs = cs := by
  induction cs with
  | nil => rfl
  | cons c cs ih =>
    obtain ⟨first, others⟩ := not_or.mp (mt List.mem_cons.mpr h)
    rw [unifyLineEnds_cons (Ne.symm first), ih others]

/-- Newlines come in and returns go. -/
theorem mem_unifyLineEnds {c : Char} (h : c ∈ unifyLineEnds cs) :
    c ≠ '\r' ∧ (c = '\n' ∨ c ∈ cs) := by
  fun_induction unifyLineEnds cs with
  | case1 => cases h
  | case2 rest ih | case3 rest _ ih =>
    rcases List.mem_cons.mp h with rfl | h
    · exact ⟨by decide, .inl rfl⟩
    · exact ⟨(ih h).1, (ih h).2.imp_right fun mem => by simp [mem]⟩
  | case4 d rest _ plain ih =>
    rcases List.mem_cons.mp h with rfl | h
    · exact ⟨plain, .inr List.mem_cons_self⟩
    · exact ⟨(ih h).1, (ih h).2.imp_right (List.mem_cons_of_mem d)⟩

end RequestWriter.Text
