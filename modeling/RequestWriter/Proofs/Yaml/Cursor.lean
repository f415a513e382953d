import RequestWriter.Yaml.Lexer
import RequestWriter.Proofs.Json.Token

/-!
# Moving through a text

Every place that a reader gets to is the place behind some number of characters. So a lemma about a
reader says what it found and how many characters it took, and places are compared by counting.

What stands between two tokens of a portable text is a run of spaces and newlines. The readers take
it line by line, and a proof about them is an induction on its lines.
-/

namespace RequestWriter.Yaml

open Json (Starts starts_cons)

namespace Cursor

variable {c : Cursor} {a r : List Char}

theorem rest_next (c : Cursor) : c.next.rest = c.rest.tail := by
  unfold next
  split
  · next eq => rw [eq, List.tail_nil]
  · next eq =>
    rw [eq]
    split <;> rfl

theorem rest_skip (n : Nat) (c : Cursor) : (c.skip n).rest = c.rest.drop n := by
  induction n generalizing c with
  | zero => rfl
  | succ n ih => rw [skip, ih, rest_next, List.drop_tail]

theorem skip_skip (m n : Nat) (c : Cursor) : (c.skip m).skip n = c.skip (m + n) := by
  induction m generalizing c with
  | zero => rw [Nat.zero_add, skip]
  | succ m ih => rw [Nat.succ_add, skip, skip, ih]

/-- Behind a part of the text stands what follows it. -/
theorem rest_skip_length (h : c.rest = a ++ r) : (c.skip a.length).rest = r := by
  rw [rest_skip, h, List.drop_left]

/-- Every character of a part counts. -/
theorem index_skip_length (h : c.rest = a ++ r) : (c.skip a.length).index = c.index + a.length := by
  induction a generalizing c with
  | nil => rfl
  | cons x a ih =>
    have front : c.rest = x :: (a ++ r) := h
    have index : c.next.index = c.index + 1 := by
      simp only [next, front]
      split <;> rfl
    rw [List.length_cons, skip, ih (by rw [rest_next, front, List.tail_cons]), index]
    omega

/-- A part without line ends stands on one line. -/
theorem line_skip_length (h : c.rest = a ++ r) (flat : ∀ x ∈ a, isBreak x = false) :
    (c.skip a.length).line = c.line := by
  induction a generalizing c with
  | nil => rfl
  | cons x a ih =>
    have front : c.rest = x :: (a ++ r) := h
    have line : c.next.line = c.line := by
      simp [next, front, flat x List.mem_cons_self]
    rw [List.length_cons, skip, ih (by rw [rest_next, front, List.tail_cons])
      fun y hy => flat y (List.mem_cons_of_mem x hy), line]

theorem peek_of_rest {x : Char} (h : c.rest = x :: r) : c.peek = some x := by
  rw [peek, h, List.head?_cons]

theorem span_append {p : Char → Bool} (h : c.rest = a ++ r) (all : ∀ x ∈ a, p x = true)
    (stop : Starts (fun x => p x = false) r) : c.span p = (a, c.skip a.length) := by
  have taken : c.rest.takeWhile p = a := by
    rw [h, List.takeWhile_append_of_pos all]
    cases r with
    | nil => simp
    | cons x r => simp [(starts_cons _ x r).mp stop]
  rw [span, taken]

theorem lineBreak_newline (h : c.rest = '\n' :: r) : c.lineBreak = (some '\n', c.skip 1) := by
  rw [lineBreak, peek_of_rest h]
  rfl

theorem lineBreak_of_starts (h : Starts (fun x => isBreak x = false) c.rest) :
    c.lineBreak = (none, c) := by
  cases rest : c.rest with
  | nil => simp [lineBreak, peek, rest]
  | cons x r =>
    rw [rest, starts_cons] at h
    simp [lineBreak, peek, rest, h]

/-- A document neither begins nor ends where the line has another front. -/
theorem seesDocumentMark_of_starts (h : Starts (fun x => x ≠ '-' ∧ x ≠ '.') c.rest) :
    c.seesDocumentMark = false := by
  cases rest : c.rest with
  | nil => simp [seesDocumentMark, rest]
  | cons x r =>
    rw [rest, starts_cons] at h
    simp [seesDocumentMark, rest, h.1.symm, h.2.symm]

end Cursor

/-- A run of spaces and newlines, line by line. -/
inductive Run : List Char → Prop
  | last (k : Nat) : Run (List.replicate k ' ')
  | line (k : Nat) {b : List Char} (rest : Run b) : Run (List.replicate k ' ' ++ '\n' :: b)

theorem run_of_forall {b : List Char} (h : ∀ x ∈ b, x = ' ' ∨ x = '\n') : Run b := by
  induction b with
  | nil => exact .last 0
  | cons x b ih =>
    rw [List.forall_mem_cons] at h
    have rest := ih h.2
    rcases h.1 with rfl | rfl
    · cases rest with
      | last k => exact .last (k + 1)
      | line k rest => exact .line (k + 1) rest
    · exact .line 0 rest

/-- A character with which a token begins: what is skipped in front of tokens ends there. -/
structure IsFront (x : Char) : Prop where
  noSpace : x ≠ ' '
  noBreak : isBreak x = false
  noComment : x ≠ '#'
  noMark : x ≠ byteOrderMark

section Runs

variable {c : Cursor} {b cs : List Char} {k : Nat}

theorem Run.starts_append (run : Run b) {p : Char → Prop} (space : p ' ') (newline : p '\n')
    (h : Starts p cs) : Starts p (b ++ cs) := by
  cases run with
  | last k => cases k <;> simp [List.replicate_succ, space, h]
  | line k => cases k <;> simp [List.replicate_succ, space, newline]

theorem skipSpaces_append (h : c.rest = List.replicate k ' ' ++ cs)
    (stop : Starts (· ≠ ' ') cs) : c.skipSpaces = c.skip k := by
  have span := Cursor.span_append (p := (· == ' ')) h (by simp) (stop.mono (by simp))
  rw [Cursor.skipSpaces, Cursor.skipWhile, span, List.length_replicate]

/-- The last line of a run ends at the token. -/
theorem lineBreak_last (h : c.rest = List.replicate k ' ' ++ cs) (front : Starts IsFront cs) :
    c.skipSpaces = c.skip k ∧ (c.skip k).lineBreak = (none, c.skip k) ∧ (c.skip k).rest = cs := by
  have rest : (c.skip k).rest = cs := by
    have := Cursor.rest_skip_length h
    rwa [List.length_replicate] at this
  refine ⟨skipSpaces_append h (front.mono fun _ hx => hx.noSpace), ?_, rest⟩
  exact Cursor.lineBreak_of_starts (by rw [rest]; exact front.mono fun _ hx => hx.noBreak)

/-- Any other line ends with a newline. -/
theorem lineBreak_line (h : c.rest = List.replicate k ' ' ++ '\n' :: b ++ cs) :
    c.skipSpaces = c.skip k ∧ (c.skip k).lineBreak = (some '\n', c.skip (k + 1)) ∧
      (c.skip k).rest = '\n' :: (b ++ cs) ∧ (c.skip (k + 1)).rest = b ++ cs := by
  have shape : c.rest = List.replicate k ' ' ++ '\n' :: (b ++ cs) := by simp [h]
  have rest : (c.skip k).rest = '\n' :: (b ++ cs) := by
    have := Cursor.rest_skip_length shape
    rwa [List.length_replicate] at this
  refine ⟨skipSpaces_append shape (by simp), ?_, rest, ?_⟩
  · rw [Cursor.lineBreak_newline rest, Cursor.skip_skip]
  · rw [← Cursor.skip_skip, Cursor.rest_skip, rest]
    rfl

/-- What stands in front of a token is skipped up to the token. -/
theorem skipEmpty_run (run : Run b) {bound : Nat} (enough : b.length < bound)
    (h : c.rest = b ++ cs) (front : Starts IsFront cs) :
    ∃ newLine, Lexer.skipEmpty bound c = (c.skip b.length, newLine) := by
  have noComment : ∀ {c : Cursor}, Starts (· ≠ '#') c.rest → c.skipComment = c := by
    intro c other
    cases rest : c.rest with
    | nil => simp [Cursor.skipComment, Cursor.sees, Cursor.peek, rest]
    | cons x r =>
      rw [rest, starts_cons] at other
      simp [Cursor.skipComment, Cursor.sees, Cursor.peek, rest, other]
  induction run generalizing c bound with
  | last k =>
    obtain ⟨bound, rfl⟩ : ∃ m, bound = m + 1 := ⟨bound - 1, by omega⟩
    obtain ⟨spaces, ends, rest⟩ := lineBreak_last h front
    refine ⟨false, ?_⟩
    have other : Starts (· ≠ '#') (c.skip k).rest := by
      rw [rest]
      exact front.mono fun _ hx => hx.noComment
    rw [Lexer.skipEmpty, spaces, noComment other, ends, List.length_replicate]
  | @line k b run ih =>
    simp only [List.length_append, List.length_replicate, List.length_cons] at enough ⊢
    obtain ⟨bound, rfl⟩ : ∃ m, bound = m + 1 := ⟨bound - 1, by omega⟩
    obtain ⟨spaces, ends, newline, rest⟩ := lineBreak_line h
    obtain ⟨newLine, others⟩ := ih (show b.length < bound by omega) rest
    refine ⟨true, ?_⟩
    rw [Lexer.skipEmpty, spaces, noComment (by simp [newline]), ends]
    simp only [others, Cursor.skip_skip]
    rw [show k + 1 + b.length = k + (b.length + 1) by omega]

end Runs

end RequestWriter.Yaml
