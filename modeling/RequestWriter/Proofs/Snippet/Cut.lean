import RequestWriter.Proofs.Snippet.Closed

/-!
# Literals that are cut off

What a reader of literals makes of a text that is put together from code and string literals. It
passes over code, and over a literal whose text holds no carriage return: the writer escapes
quotation marks, backslashes and newlines. A carriage return is left as it is, and it ends the line
on which the literal stands, so the reader finds the literal cut off, wherever the text stands.
-/

namespace RequestWriter.Python

open Text Closed

variable {cs : List Char}

section Code

/-- Whether a character of code is neither a mark nor one that the reader never sees. -/
def isCode (c : Char) : Bool := !(['\r', '\x00', '"', '\'', '#'].contains c)

theorem isCode_of_isPlain {c : Char} (h : isPlain c = true) : isCode c = true := by
  simp only [isPlain, isCode, Bool.not_eq_true', List.contains_eq_mem, decide_eq_false_iff_not,
    List.mem_cons, not_or] at h ⊢
  simp [h]

/-- Whether a literal can begin behind some code. -/
def freeBehind (free : Bool) : List Char → Bool
  | [] => free
  | c :: cs => freeBehind (!isNameChar c) cs

/-- Code behind which a literal can begin. -/
def isFront (s : String) : Bool := s.toList.all isCode && freeBehind true s.toList

theorem cutOff_code (code : cs.all isCode = true) (free : Bool) (rest : List Char) :
    cutOff (.code free) (unifyLineEnds (cs ++ rest)) =
      cutOff (.code (freeBehind free cs)) (unifyLineEnds rest) := by
  induction cs generalizing free with
  | nil => rfl
  | cons c cs ih =>
    rw [List.all_cons, Bool.and_eq_true] at code
    obtain ⟨here, later⟩ := code
    simp only [isCode, Bool.not_eq_true', List.contains_eq_mem, decide_eq_false_iff_not,
      List.mem_cons, List.not_mem_nil, or_false, not_or] at here
    obtain ⟨noReturn, -, quote, mark, comment⟩ := here
    rw [List.cons_append, unifyLineEnds_cons noReturn, cutOff, freeBehind, ← ih later]
    simp [quote, mark, comment]

end Code

section Literals

/-- Inside a literal, these characters are read as part of the literal. -/
theorem cutOff_chars (chars : Chars cs) (rest : List Char) :
    cutOff .literal (unifyLineEnds (cs ++ rest)) = cutOff .literal (unifyLineEnds rest) := by
  induction chars with
  | nil => rfl
  | plain other _ ih =>
    simp only [List.mem_cons, List.not_mem_nil, or_false, not_or] at other
    obtain ⟨quote, backslash, newline, noReturn⟩ := other
    rw [List.cons_append, unifyLineEnds_cons noReturn, cutOff]
    simp [quote, backslash, newline, ih]
  | @escape c _ letter _ ih =>
    have letters : ∀ c ∈ escapes, c ≠ '\r' := by simp [escapes]
    rw [List.cons_append, List.cons_append, unifyLineEnds_cons (by decide),
      unifyLineEnds_cons (letters c letter)]
    simp [cutOff, ih]

/-- A carriage return cuts the literal off. -/
theorem cutOff_return {s : List Char} (mem : '\r' ∈ s) (rest : List Char) :
    cutOff .literal (unifyLineEnds (s.flatMap dialect.escapeChar ++ rest)) = true := by
  obtain ⟨before, behind, rfl, first⟩ := List.eq_append_cons_of_mem mem
  have itself : dialect.escapeChar '\r' = ['\r'] := rfl
  rw [List.flatMap_append, List.flatMap_cons, itself, List.append_assoc,
    cutOff_chars (chars_escaped first)]
  obtain ⟨ds, eq⟩ := unifyLineEnds_return (behind.flatMap dialect.escapeChar ++ rest)
  rw [List.append_assoc, List.cons_append, List.nil_append, eq]
  simp [cutOff]

/-- A literal that begins in code. -/
theorem cutOff_quote (s : String) (rest : List Char) :
    cutOff (.code true) (unifyLineEnds ((dialect.quote s).toList ++ rest)) =
      cutOff .literal (unifyLineEnds (s.toList.flatMap dialect.escapeChar ++ '"' :: rest)) := by
  have chars : (dialect.quote s).toList ++ rest =
      '"' :: (s.toList.flatMap dialect.escapeChar ++ '"' :: rest) := by
    simp [quote_eq]
  rw [chars, unifyLineEnds_cons (by decide), cutOff]
  simp

/-- The characters that no literal of a source may hold: the writer leaves them as they are. -/
def cutting : List Char := ['\r', '\x00']

theorem cutting_mem_escapeChar {d : Char} (cut : d ∈ cutting) (c : Char) :
    d ∈ dialect.escapeChar c ↔ c = d := by
  have other : d ≠ '\\' ∧ d ≠ '"' ∧ d ≠ '\n' ∧ d ≠ 'n' := by
    have all : ∀ d ∈ cutting, d ≠ '\\' ∧ d ≠ '"' ∧ d ≠ '\n' ∧ d ≠ 'n' := by simp [cutting]
    exact all d cut
  simp only [dialect, Target.dialect, Dialect.escapeChar]
  split_ifs with backslash quote newline
  · simp [backslash.1, other, Ne.symm other.1]
  · simp [quote, other, Ne.symm other.2.1]
  · simp [newline.1, other, Ne.symm other.2.2.1]
  · simp [eq_comm]

theorem cutting_notMem (code : cs.all isCode = true) : ∀ d ∈ cutting, d ∉ cs := by
  intro d cut mem
  have all : ∀ d ∈ cutting, isCode d = false := by simp [cutting, isCode]
  have here := List.all_eq_true.mp code d mem
  rw [all d cut] at here
  cases here

end Literals

/-- A text of code and literals with these texts. A reader of literals passes over it, wherever it
stands, unless one of the texts holds a carriage return; then the reader finds a literal that is cut
off. -/
structure Reads (s : String) (texts : List String) : Prop where
  holds : ∀ d ∈ cutting, d ∈ s.toList ↔ ∃ t ∈ texts, d ∈ t.toList
  passes : (∀ t ∈ texts, '\r' ∉ t.toList) →
    ∀ free rest, (s.toList.head? = some '"' → free = true) →
      ∃ free', cutOff (.code free) (unifyLineEnds (s.toList ++ rest)) =
        cutOff (.code free') (unifyLineEnds rest)
  cuts : (∃ t ∈ texts, '\r' ∈ t.toList) →
    ∀ free rest, (s.toList.head? = some '"' → free = true) →
      cutOff (.code free) (unifyLineEnds (s.toList ++ rest)) = true

namespace Reads

variable {s t : String} {a b : List String}

theorem congr (h : Reads s a) (same : a = b) : Reads s b := same ▸ h

theorem code (h : s.toList.all isCode = true) : Reads s [] where
  holds d cut := by simpa using cutting_notMem h d cut
  passes _ free rest _ := ⟨_, cutOff_code h free rest⟩
  cuts := by simp

theorem quote (s : String) : Reads (dialect.quote s) [s] where
  holds d cut := by
    have other : ∀ d ∈ cutting, d ≠ '"' := by simp [cutting]
    simp [quote_eq, cutting_mem_escapeChar cut, other d cut]
  passes noReturn free rest front := by
    have free : free = true := front (by simp [quote_eq])
    rw [free, cutOff_quote, cutOff_chars (chars_escaped (noReturn s (by simp))),
      unifyLineEnds_cons (by decide)]
    exact ⟨false, by simp [cutOff]⟩
  cuts mem free rest front := by
    have free : free = true := front (by simp [quote_eq])
    rw [free, cutOff_quote, cutOff_return (by simpa using mem)]

theorem append (hs : Reads s a) (ht : Reads t b) (mark : t.toList.head? ≠ some '"') :
    Reads (s ++ t) (a ++ b) := by
  have front {free : Bool} (h : (s ++ t).toList.head? = some '"' → free = true) :
      s.toList.head? = some '"' → free = true := by
    intro head
    refine h ?_
    rw [String.toList_append, List.head?_append, head]
    rfl
  have next {free : Bool} : t.toList.head? = some '"' → free = true := fun head => absurd head mark
  refine ⟨fun d cut => ?_, fun noReturn free rest head => ?_, fun mem free rest head => ?_⟩
  · rw [String.toList_append, List.mem_append, hs.holds d cut, ht.holds d cut]
    simp [or_and_right, exists_or]
  · rw [List.forall_mem_append] at noReturn
    obtain ⟨middle, first⟩ := hs.passes noReturn.1 free (t.toList ++ rest) (front head)
    obtain ⟨last, second⟩ := ht.passes noReturn.2 middle rest next
    rw [String.toList_append, List.append_assoc]
    exact ⟨last, first.trans second⟩
  · rw [String.toList_append, List.append_assoc]
    by_cases early : ∃ t ∈ a, '\r' ∈ t.toList
    · exact hs.cuts early free _ (front head)
    · have later : ∃ t ∈ b, '\r' ∈ t.toList := by
        obtain ⟨u, mem, found⟩ := mem
        rcases List.mem_append.mp mem with mem | mem
        · exact absurd ⟨u, mem, found⟩ early
        · exact ⟨u, mem, found⟩
      have noReturn : ∀ t ∈ a, '\r' ∉ t.toList := fun t mem found => early ⟨t, mem, found⟩
      obtain ⟨middle, first⟩ := hs.passes noReturn free (t.toList ++ rest) (front head)
      rw [first]
      exact ht.cuts later middle rest next

/-- A text behind code. -/
theorem behind (pre : String) (h : isFront pre = true) (hs : Reads s a) : Reads (pre ++ s) a := by
  obtain ⟨code, open_⟩ := Bool.and_eq_true_iff.mp h
  have front {free : Bool} (h : (pre ++ s).toList.head? = some '"' → free = true) :
      s.toList.head? = some '"' → freeBehind free pre.toList = true := by
    intro head
    rw [String.toList_append] at h
    cases chars : pre.toList with
    | nil =>
      rw [chars] at h
      exact h head
    | cons c cs =>
      rw [chars] at open_
      exact open_
  refine ⟨fun d cut => ?_, fun noReturn free rest head => ?_, fun mem free rest head => ?_⟩
  · rw [String.toList_append, List.mem_append, hs.holds d cut]
    simp [cutting_notMem code d cut]
  · rw [String.toList_append, List.append_assoc, cutOff_code code]
    exact hs.passes noReturn _ rest (front head)
  · rw [String.toList_append, List.append_assoc, cutOff_code code]
    exact hs.cuts mem _ rest (front head)

/-- A source has a literal that is cut off exactly when one of its texts holds a carriage return. -/
theorem isCut_iff (hs : Reads s a) : IsCut s ↔ ∃ t ∈ a, '\r' ∈ t.toList := by
  rw [IsCut]
  constructor
  · intro cut
    by_contra clean
    have noReturn : ∀ t ∈ a, '\r' ∉ t.toList := fun t mem found => clean ⟨t, mem, found⟩
    obtain ⟨free, read⟩ := hs.passes noReturn true [] fun _ => rfl
    rw [List.append_nil] at read
    rw [read] at cut
    cases cut
  · intro mem
    have cut := hs.cuts mem true [] fun _ => rfl
    rwa [List.append_nil] at cut

end Reads

/-- Texts that are read one by one. -/
inductive ReadsAll : List String → List String → Prop
  | nil : ReadsAll [] []
  | cons {s : String} {ss a b : List String} (first : Reads s a) (rest : ReadsAll ss b) :
      ReadsAll (s :: ss) (a ++ b)

namespace ReadsAll

variable {s : String} {ss ts a b : List String}

theorem singleton (h : Reads s a) : ReadsAll [s] a := by
  have only := ReadsAll.cons h .nil
  rwa [List.append_nil] at only

theorem append (hs : ReadsAll ss a) (ht : ReadsAll ts b) : ReadsAll (ss ++ ts) (a ++ b) := by
  induction hs with
  | nil => exact ht
  | cons first _ ih =>
    rw [List.append_assoc]
    exact .cons first ih

/-- Texts of code only. -/
theorem code (h : ∀ s ∈ ss, s.toList.all isCode = true) : ReadsAll ss [] := by
  induction ss with
  | nil => exact .nil
  | cons s ss ih =>
    rw [List.forall_mem_cons] at h
    exact .cons (.code h.1) (ih h.2)

theorem map {α : Type} {xs : List α} {look : α → String} {texts : α → List String}
    (h : ∀ x ∈ xs, Reads (look x) (texts x)) : ReadsAll (xs.map look) (xs.flatMap texts) := by
  induction xs with
  | nil => exact .nil
  | cons x xs ih =>
    rw [List.forall_mem_cons] at h
    exact .cons h.1 (ih h.2)

/-- Texts with code between them. -/
theorem join (sep : String) (code : isFront sep = true)
    (mark : ∀ s, (sep ++ s).toList.head? ≠ some '"') (h : ReadsAll ss a) :
    Reads (Text.join sep ss) a := by
  induction h with
  | nil => exact .code rfl
  | cons first rest ih =>
    cases rest with
    | nil => simpa using first
    | cons next rest =>
      rw [Text.join_cons_cons, String.append_assoc]
      exact first.append (ih.behind sep code) (mark _)

end ReadsAll

end RequestWriter.Python
