import RequestWriter.Proofs.Yaml.Cursor

/-!
# Words without quotes

A plain scalar of one word in a flow collection. The reader looks behind the word for more of them,
so it stops only at the mark that follows, with the blanks before the mark taken.
-/

namespace RequestWriter.Yaml

open Json (Starts starts_cons)

/-- A mark that ends an item of a flow collection. -/
def IsFlowEnd (x : Char) : Prop := x = ',' ∨ x = ']' ∨ x = '\x7d'

theorem IsFlowEnd.isFront {x : Char} (h : IsFlowEnd x) : IsFront x := by
  rcases h with rfl | rfl | rfl <;> exact ⟨by decide, by decide, by decide, by decide⟩

/-- A character that neither ends a word nor could end it. -/
structure IsWordChar (x : Char) : Prop where
  noGap : isWideGap (some x) = false
  noColon : x ≠ ':'
  noMark : Plain.isFlowMark x = false
  noKey : x ≠ '?'
  noComment : x ≠ '#'

instance : DecidablePred IsWordChar := fun x =>
  decidable_of_iff (isWideGap (some x) = false ∧ x ≠ ':' ∧ Plain.isFlowMark x = false ∧ x ≠ '?' ∧
      x ≠ '#')
    ⟨fun ⟨noGap, noColon, noMark, noKey, noComment⟩ => ⟨noGap, noColon, noMark, noKey, noComment⟩,
      fun ⟨noGap, noColon, noMark, noKey, noComment⟩ => ⟨noGap, noColon, noMark, noKey, noComment⟩⟩

variable {c : Cursor} {w b cs : List Char}

namespace Plain

theorem word_flowEnd (ends : Starts IsFlowEnd cs) : word true cs = [] := by
  cases cs with
  | nil => rfl
  | cons x cs =>
    have mark : isFlowMark x = true := by
      rcases (starts_cons _ x cs).mp ends with rfl | rfl | rfl <;> rfl
    simp [word, mark]

theorem word_append (hw : ∀ x ∈ w, IsWordChar x) (run : Run b) (ends : Starts IsFlowEnd cs) :
    word true (w ++ (b ++ cs)) = w := by
  induction w with
  | nil =>
    have stop : Starts (fun x => isWideGap (some x) = true ∨ isFlowMark x = true) (b ++ cs) := by
      refine run.starts_append (.inl rfl) (.inl rfl) (ends.mono ?_)
      rintro x (rfl | rfl | rfl) <;> exact .inr rfl
    cases rest : b ++ cs with
    | nil => rfl
    | cons x r =>
      rw [rest, starts_cons] at stop
      rcases stop with gap | mark
      · simp [word, gap]
      · simp [word, mark]
  | cons x w ih =>
    rw [List.forall_mem_cons] at hw
    obtain ⟨noGap, noColon, noMark, noKey, -⟩ := hw.1
    rw [List.cons_append, word]
    simp [noGap, noColon, noMark, noKey, ih hw.2]

/-- The lines behind a word are taken, since no document begins or ends there. -/
theorem emptyLines?_run (run : Run b) {bound : Nat} (enough : b.length < bound)
    (h : c.rest = b ++ cs) (ends : Starts IsFlowEnd cs) :
    ∃ lines, emptyLines? bound c = (some lines, c.skip b.length) := by
  have front : Starts IsFront cs := ends.mono fun _ hx => hx.isFront
  have noMark : ∀ {b : List Char} {c : Cursor}, Run b → c.rest = b ++ cs →
      c.seesDocumentMark = false := by
    intro b c run h
    refine Cursor.seesDocumentMark_of_starts (h ▸ run.starts_append (by decide) (by decide) ?_)
    refine ends.mono ?_
    rintro x (rfl | rfl | rfl) <;> decide
  induction run generalizing c bound with
  | last k =>
    obtain ⟨bound, rfl⟩ : ∃ m, bound = m + 1 := ⟨bound - 1, by omega⟩
    obtain ⟨spaces, line, -⟩ := lineBreak_last h front
    refine ⟨[], ?_⟩
    rw [emptyLines?, noMark (.last k) h, if_neg (by decide), spaces, line, List.length_replicate]
  | @line k b run ih =>
    simp only [List.length_append, List.length_replicate, List.length_cons] at enough ⊢
    obtain ⟨bound, rfl⟩ : ∃ m, bound = m + 1 := ⟨bound - 1, by omega⟩
    obtain ⟨spaces, line, -, rest⟩ := lineBreak_line h
    obtain ⟨lines, others⟩ := ih (show b.length < bound by omega) rest
    refine ⟨'\n' :: lines, ?_⟩
    rw [emptyLines?, noMark (.line k run) h, if_neg (by decide), spaces, line]
    simp only [others, Cursor.skip_skip, Option.map_some]
    rw [show k + 1 + b.length = k + (b.length + 1) by omega]

/-- The space behind the last word reaches up to the mark. -/
theorem cursor_space (run : Run b) (h : c.rest = b ++ cs) (ends : Starts IsFlowEnd cs) :
    (space c).cursor = c.skip b.length := by
  have front : Starts IsFront cs := ends.mono fun _ hx => hx.isFront
  have spaces : ∀ {k r}, c.rest = List.replicate k ' ' ++ r → Starts (· ≠ ' ') r →
      c.span (· == ' ') = (List.replicate k ' ', c.skip k) := by
    intro k r h other
    have := Cursor.span_append h (p := (· == ' ')) (by simp) (other.mono (by simp))
    rwa [List.length_replicate] at this
  cases run with
  | last k =>
    obtain ⟨-, line, -⟩ := lineBreak_last h front
    rw [space, spaces h (front.mono fun _ hx => hx.noSpace), List.length_replicate]
    simp only [line]
  | @line k b run =>
    obtain ⟨-, line, -, rest⟩ := lineBreak_line h
    have shape : c.rest = List.replicate k ' ' ++ '\n' :: (b ++ cs) := by simp [h]
    obtain ⟨lines, others⟩ := emptyLines?_run run
      (show b.length < (c.skip (k + 1)).rest.length + 1 by rw [rest, List.length_append]; omega)
      rest ends
    rw [space, spaces shape (by simp)]
    simp only [line, others, Cursor.skip_skip]
    rw [List.length_append, List.length_replicate, List.length_cons,
      show k + 1 + b.length = k + (b.length + 1) by omega]

/-- A word in front of a mark of the collection is a scalar, and the place behind it is the mark. -/
theorem scalar_word (nonempty : w ≠ []) (hw : ∀ x ∈ w, IsWordChar x) (run : Run b)
    (ends : Starts IsFlowEnd cs) (h : c.rest = w ++ (b ++ cs)) (indent : Nat) :
    ∃ newLine, scalar true indent c =
      (String.ofList w, c.skip (w.length + b.length), newLine) := by
  obtain ⟨x, w', rfl⟩ := List.exists_cons_of_ne_nil nonempty
  have noComment : c.sees '#' = false := by
    simp [Cursor.sees, Cursor.peek, h, (hw x List.mem_cons_self).noComment]
  have behind : (space (c.skip (x :: w').length)).cursor =
      c.skip ((x :: w').length + b.length) := by
    rw [cursor_space run (Cursor.rest_skip_length h) ends, Cursor.skip_skip]
  have nothing : word true (c.skip ((x :: w').length + b.length)).rest = [] := by
    rw [← Cursor.skip_skip, Cursor.rest_skip_length (Cursor.rest_skip_length h)]
    exact word_flowEnd ends
  have long : c.rest.length = (w' ++ (b ++ cs)).length + 1 := by simp [h]
  have found : word true c.rest = x :: w' := by rw [h, word_append hw run ends]
  simp only [scalar, long, words, found, noComment, behind, nothing, List.isEmpty_cons,
    Bool.or_self, Bool.false_eq_true, if_false]
  split <;> simp

end Plain

end RequestWriter.Yaml
