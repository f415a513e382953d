import RequestWriter.Proofs.Snippet.Containment

/-!
# How a source is put together

A source is put together from code, in which no quotation marks stand, and from string literals
with certain texts. This says how the source was written and nothing about how it is read. Any rule
of reading has to be looked at for a single literal only; for a whole source it follows by induction
on the way the source was put together.
-/

namespace RequestWriter

open Piece

/-- The source is put together from code and from literals with these texts, in this order. -/
inductive Composed (d : Dialect) : String → List String → Prop
  | code {s : String} (h : Unmarked s.toList) : Composed d s []
  | quote (s : String) : Composed d (d.quote s) [s]
  | append {s t : String} {a b : List String} (h : Composed d s a) (h' : Composed d t b) :
      Composed d (s ++ t) (a ++ b)

/-- Sources that are put together one by one, with all their texts. -/
inductive ComposedAll (d : Dialect) : List String → List String → Prop
  | nil : ComposedAll d [] []
  | cons {s : String} {ss a b : List String} (first : Composed d s a)
      (rest : ComposedAll d ss b) : ComposedAll d (s :: ss) (a ++ b)

variable {d : Dialect} {s pre post : String} {ss ts a b : List String}

namespace Composed

theorem congr (h : Composed d s a) (same : a = b) : Composed d s b := same ▸ h

/-- A source with code in front of it. -/
theorem behind (pre : String) (hpre : Unmarked pre.toList) (h : Composed d s a) :
    Composed d (pre ++ s) a := (Composed.code hpre).append h

/-- A source with code on both sides. -/
theorem between (pre post : String) (hpre : Unmarked pre.toList) (hpost : Unmarked post.toList)
    (h : Composed d s a) : Composed d (pre ++ s ++ post) a :=
  ((h.behind pre hpre).append (.code hpost)).congr (List.append_nil a)

end Composed

namespace ComposedAll

theorem congr (h : ComposedAll d ss a) (same : a = b) : ComposedAll d ss b := same ▸ h

theorem singleton (h : Composed d s a) : ComposedAll d [s] a := by
  have only := ComposedAll.cons h .nil
  rwa [List.append_nil] at only

theorem append (h : ComposedAll d ss a) (h' : ComposedAll d ts b) :
    ComposedAll d (ss ++ ts) (a ++ b) := by
  induction h with
  | nil => exact h'
  | cons first _ ih =>
    rw [List.append_assoc]
    exact .cons first ih

/-- Lines of code. -/
theorem code (h : ∀ s ∈ ss, Unmarked s.toList) : ComposedAll d ss [] := by
  induction ss with
  | nil => exact .nil
  | cons s ss ih =>
    rw [List.forall_mem_cons] at h
    exact .cons (.code h.1) (ih h.2)

/-- One source for each of several things. -/
theorem map {α : Type} {xs : List α} {line : α → String} {texts : α → List String}
    (h : ∀ x ∈ xs, Composed d (line x) (texts x)) :
    ComposedAll d (xs.map line) (xs.flatMap texts) := by
  induction xs with
  | nil => exact .nil
  | cons x xs ih =>
    rw [List.forall_mem_cons] at h
    exact .cons h.1 (ih h.2)

/-- Sources with code between them. -/
theorem join (sep : String) (hsep : Unmarked sep.toList) (h : ComposedAll d ss a) :
    Composed d (Text.join sep ss) a := by
  induction h with
  | nil => exact .code (s := "") (by decide)
  | cons first rest ih =>
    cases rest with
    | nil => simpa using first
    | cons next rest =>
      rw [Text.join_cons_cons, String.append_assoc]
      exact first.append (ih.behind sep hsep)

end ComposedAll

namespace Composed

theorem block {opening closing : String} (hopening : Unmarked opening.toList)
    (hclosing : Unmarked closing.toList) (level : Int) (h : ComposedAll d ss a) :
    Composed d (Literal.block opening closing level ss) a := by
  have lines := h.join ",\n" (by decide)
  unfold Literal.block
  split
  · next empty =>
    obtain rfl := List.isEmpty_iff.mp empty
    cases h
    exact .code (by simpa using unmarked_append hopening hclosing)
  · have front : Unmarked (opening ++ "\n").toList := by
      simpa using unmarked_append hopening (by decide)
    have back : Unmarked ("\n" ++ Literal.pad level ++ closing).toList := by
      have newline : Unmarked "\n".toList := by decide
      simpa using unmarked_append (unmarked_append newline (unmarked_pad level)) hclosing
    have whole := lines.between _ _ front back
    simpa only [String.append_assoc] using whole

/-- The literal of a value is put together from its keys and texts, down to the depth bound. -/
theorem render (t : Target) (g : Graph) {v : Value} (built : v.Built Scalar.IsJson) (left : Nat)
    (level : Int) :
    Composed t.dialect (Literal.render t.dialect g left level v) (v.texts left) := by
  induction left generalizing v level with
  | zero => exact .code (unmarked_scalar (t := t) (s := .null) trivial (by simp))
  | succ left ih =>
    cases built with
    | @scalar s h =>
      by_cases isText : ∃ text, s = .text text
      · obtain ⟨text, rfl⟩ := isText
        exact .quote text
      · have noText : ∀ text, s ≠ .text text := fun text eq => isText ⟨text, eq⟩
        rw [(outline_scalar noText left).2]
        exact .code (unmarked_scalar h noText)
    | list h =>
      refine Composed.block (by decide) (by decide) level (.map fun item mem => ?_)
      exact (ih (h item mem) (level + 1)).behind _ (unmarked_pad (level + 1))
    | mapping keys h =>
      refine Composed.block (by decide) (by decide) level (.map fun entry mem => ?_)
      have separator : Unmarked t.dialect.keySeparator.toList := by
        cases t <;> decide
      have key := Composed.between (Literal.pad (level + 1)) t.dialect.keySeparator
        (unmarked_pad (level + 1)) separator (.quote (d := t.dialect) entry.1.display)
      exact key.append (ih (h entry mem) (level + 1))

/-- The header block is put together from the names and values of the headers. -/
theorem headers (t : Target) (indent closing : String) (hindent : Unmarked indent.toList)
    (hclosing : Unmarked closing.toList) (headers : Headers) :
    Composed t.dialect (headers.block t.dialect indent closing) headers.texts := by
  have separator : Unmarked t.dialect.keySeparator.toList := by
    cases t <;> decide
  have entry : ∀ header : String × String, Composed t.dialect
      (indent ++ t.dialect.quote header.1 ++ t.dialect.keySeparator ++ t.dialect.quote header.2)
      [header.1, header.2] := fun header =>
    (Composed.between indent t.dialect.keySeparator hindent separator (.quote header.1)).append
      (.quote header.2)
  have lines := (ComposedAll.map fun header (_ : header ∈ headers) => entry header).join ",\n"
    (by decide)
  have front : Unmarked "\x7b\n".toList := by decide
  have back : Unmarked ("\n" ++ closing ++ "\x7d").toList := by
    have newline : Unmarked "\n".toList := by decide
    have close : Unmarked "\x7d".toList := by decide
    simpa using unmarked_append (unmarked_append newline hclosing) close
  unfold Headers.block
  cases headers with
  | nil => exact .code (s := "\x7b\x7d") (by decide)
  | cons header headers =>
    have whole := lines.between _ _ front back
    simpa [String.append_assoc, Headers.texts] using whole

end Composed

end RequestWriter
