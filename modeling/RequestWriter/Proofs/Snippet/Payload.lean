import RequestWriter.Proofs.Snippet.Scan
import RequestWriter.Proofs.Literal.RoundTrip
import RequestWriter.Proofs.Decimal.Spelling
import RequestWriter.Snippet.Payload

/-!
# Texts of a payload

The keys and strings of a value in the order of its text, as far as a number of levels reaches, and
the outline of the value: what is left of it when all of them are blanked. Two payloads with one
outline are written as twins.
-/

namespace RequestWriter

namespace Value

/-- The keys of the mappings and the texts that lie inside fewer than so many containers, in the
order of the document. -/
def texts : Nat → Value → List String
  | 0, _ => []
  | _ + 1, .scalar (.text s) => [s]
  | _ + 1, .scalar _ => []
  | levels + 1, .list items => items.flatMap (texts levels)
  | levels + 1, .mapping entries =>
    entries.flatMap fun entry => entry.1.display :: texts levels entry.2
  | _ + 1, .ref _ => []

/-- The value with empty keys and texts, and with null in the place of every part that lies inside
exactly so many containers. -/
def outline : Nat → Value → Value
  | 0, _ => null
  | _ + 1, .scalar (.text _) => text ""
  | _ + 1, .scalar s => .scalar s
  | levels + 1, .list items => .list (items.map (outline levels))
  | levels + 1, .mapping entries =>
    .mapping (entries.map fun entry => (.text "", outline levels entry.2))
  | _ + 1, .ref i => .ref i

end Value

namespace Piece

open Json Json.Grammar

variable {t : Target} {s : String}

/-- The text holds neither of the marks that the dialects use as delimiters. -/
def Unmarked (cs : List Char) : Prop := ∀ c ∈ cs, c ≠ '\'' ∧ c ≠ '"'

instance (cs : List Char) : Decidable (Unmarked cs) := List.decidableBAll _ cs

theorem unmarked_append {cs cs' : List Char} (h : Unmarked cs) (h' : Unmarked cs') :
    Unmarked (cs ++ cs') := by
  intro c hc
  rcases List.mem_append.mp hc with hc | hc
  · exact h c hc
  · exact h' c hc

/-- A number of the grammar has no quotation marks. -/
theorem unmarked_number {cs : List Char} {v : Value} (h : Number cs v) : Unmarked cs := by
  intro c mem
  rcases mem_number h c mem with digit | mark
  · constructor <;> (rintro rfl; cases digit)
  · simp only [List.mem_cons, List.not_mem_nil, or_false] at mark
    rcases mark with rfl | rfl | rfl | rfl | rfl <;> decide

theorem Unmarked.delimiter_notMem {cs : List Char} (h : Unmarked cs) (t : Target) :
    t.dialect.delimiter ∉ cs := by
  intro mem
  rcases Literal.delimiter_cases t with d | d <;> rw [d] at mem
  · exact (h _ mem).1 rfl
  · exact (h _ mem).2 rfl

theorem Unmarked.twin (h : Unmarked s.toList) : Twin t.dialect s s [] [] :=
  .code (h.delimiter_notMem t)

theorem Twins.lines (ss : List String) (h : ∀ s ∈ ss, Unmarked s.toList) :
    Twins t.dialect ss ss [] [] :=
  .code fun s hs => (h s hs).delimiter_notMem t

theorem Twin.behind (pre : String) {s s' : String} {a b : List String} (hpre : Unmarked pre.toList)
    (h : Twin t.dialect s s' a b) : Twin t.dialect (pre ++ s) (pre ++ s') a b :=
  hpre.twin.append h

theorem Twin.between (pre post : String) {s s' : String} {a b : List String}
    (hpre : Unmarked pre.toList) (hpost : Unmarked post.toList) (h : Twin t.dialect s s' a b) :
    Twin t.dialect (pre ++ s ++ post) (pre ++ s' ++ post) a b := by
  have whole := (Twin.behind pre hpre h).append hpost.twin
  rwa [List.append_nil, List.append_nil] at whole

theorem unmarked_pad (level : Int) : Unmarked (Literal.pad level).toList := by
  intro c hc
  rw [Literal.eq_blank_of_mem_pad level hc]
  decide

/-- What a JSON scalar other than a text is written as has no literal in it. -/
theorem unmarked_scalar {s : Scalar} (h : s.IsJson) (noText : ∀ text, s ≠ .text text) :
    Unmarked (Literal.scalar t.dialect s).toList := by
  cases s with
  | null => cases t <;> decide
  | bool b => cases t <;> cases b <;> decide
  | int i => exact unmarked_number (number_toString h)
  | float f => exact unmarked_number (Decimal.number_write h)
  | text s => exact absurd rfl (noText s)
  | _ => exact absurd h id

/-- Blocks of twins are twins. -/
theorem Twins.block {opening closing : String} (hopening : Unmarked opening.toList)
    (hclosing : Unmarked closing.toList) (level : Int) {ss ts a b : List String}
    (h : Twins t.dialect ss ts a b) :
    Twin t.dialect (Literal.block opening closing level ss)
      (Literal.block opening closing level ts) a b := by
  have comma : Unmarked ",\n".toList := by decide
  have newline : Unmarked "\n".toList := by decide
  have lines := h.join _ (comma.delimiter_notMem t)
  have whole := ((((hopening.twin (t := t)).append newline.twin).append lines).append
    newline.twin).append (((unmarked_pad level).twin).append hclosing.twin)
  unfold Literal.block
  cases h with
  | nil => simpa using (hopening.twin (t := t)).append hclosing.twin
  | cons => simpa [String.append_assoc] using whole

/-- A scalar other than a text is its own outline and has no texts. -/
theorem outline_scalar {s : Scalar} (noText : ∀ text, s ≠ .text text) (left : Nat) :
    (Value.scalar s).outline (left + 1) = .scalar s ∧ (Value.scalar s).texts (left + 1) = [] := by
  cases s with
  | text s => exact absurd rfl (noText s)
  | _ => exact ⟨rfl, rfl⟩

theorem twin_scalar (doubled : t.dialect.escapesBackslash = true) {s s' : Scalar} (h : s.IsJson)
    {left : Nat}
    (same : (Value.scalar s).outline (left + 1) = (Value.scalar s').outline (left + 1)) :
    Twin t.dialect (Literal.scalar t.dialect s) (Literal.scalar t.dialect s')
      ((Value.scalar s).texts (left + 1)) ((Value.scalar s').texts (left + 1)) := by
  by_cases isText : ∃ a, s = .text a
  · obtain ⟨a, rfl⟩ := isText
    cases s' with
    | text b => exact .quote t.sound doubled a b
    | _ => cases same
  · have noText : ∀ a, s ≠ .text a := fun a eq => isText ⟨a, eq⟩
    obtain ⟨self, none⟩ := outline_scalar noText left
    have equal : s' = s := by
      rw [self] at same
      cases s' with
      | text b => exact absurd (Value.scalar.inj same) (noText "")
      | _ => exact (Value.scalar.inj same).symm
    rw [equal, none]
    exact (unmarked_scalar h noText).twin

/-- Values with one outline are written as twins. -/
theorem twin_render (doubled : t.dialect.escapesBackslash = true) (g : Graph) {v w : Value}
    (hv : v.Built Scalar.IsJson) (hw : w.Built Scalar.IsJson) {left : Nat}
    (same : v.outline left = w.outline left) (level : Int) :
    Twin t.dialect (Literal.render t.dialect g left level v)
      (Literal.render t.dialect g left level w) (v.texts left) (w.texts left) := by
  induction left generalizing v w level with
  | zero => exact (unmarked_scalar (t := t) (s := .null) trivial (by simp)).twin
  | succ left ih =>
    cases hv with
    | @scalar s hs =>
      cases hw with
      | @scalar s' => exact twin_scalar doubled hs same
      | list => cases s <;> cases same
      | mapping => cases s <;> cases same
    | @list items hs =>
      cases hw with
      | @scalar s' => cases s' <;> cases same
      | @list items' hs' =>
        refine Twins.block (by decide) (by decide) level
          (.map (Value.list.inj same) fun v mem w mem' same => ?_)
        have inner := ih (hs v mem) (hs' w mem') same (level + 1)
        exact ((unmarked_pad (level + 1)).twin).append inner
      | mapping => cases same
    | @mapping entries keys hs =>
      cases hw with
      | @scalar s' => cases s' <;> cases same
      | list => cases same
      | @mapping entries' keys' hs' =>
        refine Twins.block (by decide) (by decide) level
          (.map (Value.mapping.inj same) fun v mem w mem' same => ?_)
        have inner := ih (hs v mem) (hs' w mem') (Prod.mk.inj same).2 (level + 1)
        have separator : Unmarked t.dialect.keySeparator.toList := by
          cases t <;> decide
        have key := Twin.quote t.sound doubled v.1.display w.1.display
        exact ((((unmarked_pad (level + 1)).twin).append key).append separator.twin).append inner

end Piece

end RequestWriter
