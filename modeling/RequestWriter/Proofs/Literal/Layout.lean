import RequestWriter.Proofs.Literal.Bound
import RequestWriter.Proofs.Literal.Quoted
import RequestWriter.Proofs.Json.Nesting
import RequestWriter.Proofs.Decimal.Spelling
import RequestWriter.Proofs.Text.Search

/-!
# The layout of literals

A literal is laid out in lines, and its level of indentation moves these lines and does nothing
else. In a dialect that escapes the newline, no key, text or number brings a line break of its own:
every one is put in front of an entry or of a closing bracket. So a literal can be put at another
level by inserting blanks behind its newlines, whatever the strings of its value hold.
-/

namespace RequestWriter.Literal

/-- A new line and the blanks of a level. -/
def line (level : Int) : String := "\n" ++ pad level

/-- The text with the blanks of some more levels behind every newline. -/
def indented (levels : Nat) (s : String) : String := Text.replace "\n" (line levels) s

section Lines

variable {k : Nat} {level : Int} {s : String} {texts : List String}

theorem join_lines (front sep : String) (nonempty : texts ≠ []) :
    Text.join sep (texts.map (front ++ ·)) = front ++ Text.join (sep ++ front) texts := by
  induction texts with
  | nil => exact absurd rfl nonempty
  | cons s texts ih =>
    cases texts with
    | nil => rfl
    | cons t texts =>
      have others := ih (by simp)
      simp only [List.map_cons, Text.join_cons_cons] at others ⊢
      rw [others]
      simp only [String.append_assoc]

/-- A block is a row of lines with commas between them, and a line for its closing bracket. -/
theorem block_eq (opening closing : String) (level : Int) (nonempty : texts ≠ []) :
    block opening closing level (texts.map (pad (level + 1) ++ ·)) =
      opening ++ line (level + 1) ++ Text.join ("," ++ line (level + 1)) texts ++ line level
        ++ closing := by
  rw [block, if_neg (by simpa using nonempty), join_lines _ _ nonempty]
  have comma : ",\n" = "," ++ "\n" := rfl
  simp only [comma, line, String.append_assoc]

theorem toList_indented (k : Nat) (s : String) :
    (indented k s).toList =
      s.toList.flatMap fun c => if c = '\n' then (line k).toList else [c] :=
  Text.toList_replace '\n' (line k) s

theorem indented_append (k : Nat) (s t : String) :
    indented k (s ++ t) = indented k s ++ indented k t := by
  apply String.toList_inj.mp
  simp [toList_indented]

/-- A text of one line stays as it is. -/
theorem indented_of_notMem (h : '\n' ∉ s.toList) : indented k s = s := by
  have same : ∀ c ∈ s.toList, (if c = '\n' then (line k).toList else [c]) = [c] := by
    intro c mem
    have other : c ≠ '\n' := by
      rintro rfl
      exact h mem
    exact if_neg other
  apply String.toList_inj.mp
  rw [toList_indented, List.flatMap_congr same, List.flatMap_singleton']

theorem indented_join (k : Nat) (sep : String) (texts : List String) :
    indented k (Text.join sep texts) = Text.join (indented k sep) (texts.map (indented k)) := by
  induction texts with
  | nil => rfl
  | cons s texts ih =>
    cases texts with
    | nil => rfl
    | cons t texts =>
      simp only [List.map_cons] at ih ⊢
      rw [Text.join_cons_cons, Text.join_cons_cons, indented_append, indented_append, ih]

/-- The blanks of two levels stand side by side. -/
theorem pad_append (k : Nat) (nonneg : 0 ≤ level) : pad k ++ pad level = pad (level + k) := by
  apply String.toList_inj.mp
  simp [pad]
  omega

theorem newline_notMem_pad (level : Int) : '\n' ∉ (pad level).toList := by
  intro mem
  cases eq_blank_of_mem_pad level mem

theorem indented_line (k : Nat) (nonneg : 0 ≤ level) :
    indented k (line level) = line (level + k) := by
  have newline : indented k "\n" = line k := by
    apply String.toList_inj.mp
    rw [toList_indented]
    simp
  rw [line, indented_append, newline, indented_of_notMem (newline_notMem_pad level), line,
    String.append_assoc, pad_append k nonneg, line]

theorem indented_block {opening closing : String} (hopening : '\n' ∉ opening.toList)
    (hclosing : '\n' ∉ closing.toList) (k : Nat) (nonneg : 0 ≤ level) (texts : List String) :
    indented k (block opening closing level (texts.map (pad (level + 1) ++ ·))) =
      block opening closing (level + k)
        ((texts.map (indented k)).map (pad (level + k + 1) ++ ·)) := by
  have outer : indented k opening = opening := indented_of_notMem hopening
  have outer' : indented k closing = closing := indented_of_notMem hclosing
  by_cases empty : texts = []
  · subst empty
    change indented k (opening ++ closing) = opening ++ closing
    rw [indented_append, outer, outer']
  · have deeper : level + 1 + k = level + k + 1 := by omega
    have comma : indented k "," = "," := indented_of_notMem (by decide)
    rw [block_eq _ _ _ empty, block_eq _ _ _ (by simpa using empty)]
    simp only [indented_append, indented_join, outer, outer', comma, deeper,
      indented_line k nonneg, indented_line k (show 0 ≤ level + 1 by omega)]

/-- What stands in front of the first newline is left alone. -/
theorem firstLine_indented (k : Nat) (s : String) :
    (indented k s).toList.takeWhile (· != '\n') = s.toList.takeWhile (· != '\n') := by
  rw [toList_indented]
  induction s.toList with
  | nil => rfl
  | cons c cs ih =>
    by_cases newline : c = '\n'
    · simp [newline, line]
    · simp [newline, ih]

end Lines

section Breaks

variable {level : Int} {texts : List String}

/-- The newlines of a text. -/
def newlines (s : String) : Nat := s.toList.count '\n'

theorem newlines_append (s t : String) : newlines (s ++ t) = newlines s + newlines t := by
  simp [newlines]

theorem newlines_of_notMem {s : String} (h : '\n' ∉ s.toList) : newlines s = 0 :=
  List.count_eq_zero.mpr h

theorem newlines_line (level : Int) : newlines (line level) = 1 := by
  rw [line, newlines_append, newlines_of_notMem (newline_notMem_pad level)]
  rfl

theorem newlines_join {sep : String} (one : newlines sep = 1) (nonempty : texts ≠ []) :
    newlines (Text.join sep texts) + 1 = (texts.map newlines).sum + texts.length := by
  induction texts with
  | nil => exact absurd rfl nonempty
  | cons s texts ih =>
    cases texts with
    | nil => simp
    | cons t texts =>
      have others := ih (by simp)
      simp only [List.map_cons, List.sum_cons, List.length_cons] at others ⊢
      rw [Text.join_cons_cons, newlines_append, newlines_append, one]
      omega

/-- The line breaks of a block whose entries have so many: one more in front of each entry and one
in front of the closing bracket. -/
def blockBreaks (entries : List Nat) : Nat :=
  if entries.isEmpty then 0 else entries.sum + entries.length + 1

theorem newlines_block {opening closing : String} (hopening : '\n' ∉ opening.toList)
    (hclosing : '\n' ∉ closing.toList) (level : Int) (texts : List String) :
    newlines (block opening closing level (texts.map (pad (level + 1) ++ ·))) =
      blockBreaks (texts.map newlines) := by
  by_cases empty : texts = []
  · subst empty
    change newlines (opening ++ closing) = 0
    rw [newlines_append, newlines_of_notMem hopening, newlines_of_notMem hclosing]
  · have comma : newlines ("," ++ line (level + 1)) = 1 := by
      rw [newlines_append, newlines_line]
      rfl
    have entries := newlines_join comma empty
    rw [block_eq _ _ _ empty, blockBreaks, if_neg (by simpa using empty), List.length_map]
    simp only [newlines_append, newlines_line, newlines_of_notMem hopening,
      newlines_of_notMem hclosing]
    omega

/-- The line breaks of a value down to a number of levels. Its keys, texts and numbers have none. -/
def breaks (g : Graph) : Nat → Value → Nat
  | 0, _ => 0
  | left + 1, v =>
    match v.expose g with
    | .list items => blockBreaks (items.map (breaks g left))
    | .mapping entries => blockBreaks (entries.map fun entry => breaks g left entry.2)
    | _ => 0

end Breaks

section Values

variable {t : Target} {g : Graph} {left : Nat} {level : Int} {v : Value}

/-- A key with its value. -/
def entryText (d : Dialect) (key : Scalar) (text : String) : String :=
  d.quote key.display ++ d.keySeparator ++ text

theorem render_of_list {items : List Value} (exposed : v.expose g = .list items) (d : Dialect) :
    render d g (left + 1) level v =
      block "[" "]" level
        ((items.map (render d g left (level + 1))).map (pad (level + 1) ++ ·)) := by
  rw [render, exposed, List.map_map]
  rfl

theorem render_of_mapping {entries : List (Scalar × Value)}
    (exposed : v.expose g = .mapping entries) (d : Dialect) :
    render d g (left + 1) level v =
      block "\x7b" "\x7d" level
        ((entries.map fun entry => entryText d entry.1 (render d g left (level + 1) entry.2)).map
          (pad (level + 1) ++ ·)) := by
  rw [render, exposed, List.map_map]
  simp only [entryText, String.append_assoc, Function.comp_def]

theorem newline_notMem_numeral {cs : List Char} {w : Value} (h : Json.Grammar.Number cs w) :
    '\n' ∉ cs := by
  intro mem
  rcases Json.mem_number h _ mem with digit | mark
  · cases digit
  · simp at mark

theorem newline_notMem_null (t : Target) : '\n' ∉ t.dialect.null.toList := by
  cases t <;> decide

theorem newline_notMem_keySeparator (t : Target) : '\n' ∉ t.dialect.keySeparator.toList := by
  cases t <;> decide

theorem newline_notMem_int (i : Int) : '\n' ∉ (toString i).toList := by
  rw [Json.toList_toString_int]
  intro mem
  rcases List.mem_append.mp mem with sign | digit
  · split at sign
    · simp at sign
    · cases sign
  · cases Json.isDigit_toDigits digit

/-- A double is written with the signs of a number, or with a word where it is none. -/
theorem newline_notMem_double (d : Double) : '\n' ∉ (Decimal.sourceNotation.write d).toList := by
  by_cases finite : d.isFinite = true
  · exact newline_notMem_numeral (Decimal.number_write finite)
  · rw [Decimal.Notation.write]
    cases d.isNaN with
    | true => simp [Decimal.sourceNotation]
    | false => cases d.negative <;> simp [finite, Decimal.sourceNotation]

/-- A scalar is written on one line where the newline has an escape. -/
theorem newline_notMem_scalar (escapes : t.dialect.escapesNewline = true) (s : Scalar) :
    '\n' ∉ (scalar t.dialect s).toList := by
  have quoted (s : String) : '\n' ∉ (t.dialect.quote s).toList :=
    Dialect.newline_notMem_quote t.sound escapes s
  cases s with
  | null => exact newline_notMem_null t
  | bool b => cases t <;> cases b <;> decide
  | int i => exact newline_notMem_int i
  | float d => exact newline_notMem_double d
  | _ => exact quoted _

/-- A key is written on one line where the newline has an escape. -/
theorem newline_notMem_key (escapes : t.dialect.escapesNewline = true) (key : Scalar) :
    '\n' ∉ (t.dialect.quote key.display ++ t.dialect.keySeparator).toList := by
  rw [String.toList_append]
  intro mem
  rcases List.mem_append.mp mem with quoted | separator
  · exact Dialect.newline_notMem_quote t.sound escapes _ quoted
  · exact newline_notMem_keySeparator t separator

/-- A value that is written some levels deeper is the same text with more blanks behind its
newlines. -/
theorem render_add (escapes : t.dialect.escapesNewline = true) (k : Nat) (nonneg : 0 ≤ level) :
    render t.dialect g left (level + k) v = indented k (render t.dialect g left level v) := by
  induction left generalizing level v with
  | zero => exact (indented_of_notMem (newline_notMem_null t)).symm
  | succ left ih =>
    have deeper (w : Value) : indented k (render t.dialect g left (level + 1) w) =
        render t.dialect g left (level + k + 1) w := by
      rw [← ih (show 0 ≤ level + 1 by omega), Int.add_right_comm]
    cases exposed : v.expose g with
    | scalar s =>
      rw [render, render, exposed]
      exact (indented_of_notMem (newline_notMem_scalar escapes s)).symm
    | list items =>
      have moved : (items.map (render t.dialect g left (level + 1))).map (indented k) =
          items.map (render t.dialect g left (level + k + 1)) := by
        rw [List.map_map]
        exact List.map_congr_left fun item _ => deeper item
      rw [render_of_list exposed, render_of_list exposed,
        indented_block (by decide) (by decide) k nonneg, moved]
    | mapping entries =>
      have moved : (entries.map fun entry => entryText t.dialect entry.1
            (render t.dialect g left (level + 1) entry.2)).map (indented k) =
          entries.map fun entry => entryText t.dialect entry.1
            (render t.dialect g left (level + k + 1) entry.2) := by
        rw [List.map_map]
        refine List.map_congr_left fun entry _ => ?_
        rw [Function.comp_apply, entryText, indented_append,
          indented_of_notMem (newline_notMem_key escapes entry.1), deeper, entryText]
      rw [render_of_mapping exposed, render_of_mapping exposed,
        indented_block (by decide) (by decide) k nonneg, moved]
    | ref i =>
      rw [render, render, exposed]
      exact (indented_of_notMem (newline_notMem_null t)).symm

/-- The newlines of a literal are those of its layout. -/
theorem newlines_render (escapes : t.dialect.escapesNewline = true) :
    newlines (render t.dialect g left level v) = breaks g left v := by
  induction left generalizing level v with
  | zero => exact newlines_of_notMem (newline_notMem_null t)
  | succ left ih =>
    cases exposed : v.expose g with
    | scalar s =>
      rw [render, breaks, exposed]
      exact newlines_of_notMem (newline_notMem_scalar escapes s)
    | list items =>
      rw [render_of_list exposed, newlines_block (by decide) (by decide), List.map_map, breaks,
        exposed]
      simp only [Function.comp_def, ih]
    | mapping entries =>
      rw [render_of_mapping exposed, newlines_block (by decide) (by decide), List.map_map, breaks,
        exposed]
      simp only [Function.comp_def, entryText, newlines_append (_ ++ _),
        newlines_of_notMem (newline_notMem_key escapes _), ih, Nat.zero_add]
    | ref i =>
      rw [render, breaks, exposed]
      exact newlines_of_notMem (newline_notMem_null t)

end Values

section Documents

variable {target : Target} {doc : Document}

/-- In a dialect that escapes the newline, a literal that is written `k` levels deeper, under a
bound that is `k` levels higher, is the same text with `2 * k` more blanks behind each newline. The
first line is the same, and no newline stands in the text but those of the layout, which are counted
without a look at any key or text. -/
theorem serialize_add (short : doc.IsShort) (escapes : target.dialect.escapesNewline = true)
    (indent k : Nat) (maxDepth : Int) :
    ∃ text, (serialize target doc indent maxDepth).result = .ok text ∧
      (serialize target doc (indent + k) (maxDepth + k)).result = .ok (indented k text) ∧
      (indented k text).toList.takeWhile (· != '\n') = text.toList.takeWhile (· != '\n') ∧
      newlines text = breaks doc.graph (levelsLeft indent maxDepth) doc.root := by
  have sameLevels : levelsLeft (indent + k) (maxDepth + k) = levelsLeft indent maxDepth := by
    rw [levelsLeft, levelsLeft, Int.add_sub_add_right]
  have moved : (serialize target doc (indent + k) (maxDepth + k)).result =
      .ok (indented k (render target.dialect doc.graph (levelsLeft indent maxDepth) indent
        doc.root)) := by
    rw [serialize_of_isShort short, sameLevels, render_add escapes k (Int.natCast_nonneg indent)]
  exact ⟨_, congrArg Logged.result (serialize_of_isShort short target indent maxDepth), moved,
    firstLine_indented k _, newlines_render escapes⟩

/-- A key, a text and a list, with line breaks in the first two. -/
def broken : Document := ⟨[], .mapping [(.text "a\nb", .text "\n\n"), (.text "c", .list [.int 1])]⟩

/-- The conditions of `serialize_add` hold for `broken`, whose own line breaks do not count: the
five newlines stand in front of the two entries, the number and the two closing brackets. -/
theorem broken_add :
    broken.IsShort ∧ Target.ruby.dialect.escapesNewline = true ∧
      ∃ text, (serialize .ruby broken 1 32).result = .ok text ∧
        (serialize .ruby broken 4 35).result = .ok (indented 3 text) ∧ newlines text = 5 := by
  have root : broken.root.IsShort := by
    have short : (Nat.toDigits 10 1).length ≤ Json.maxIntegerDigits := by decide
    simpa [broken, Value.text, Value.int, Scalar.IsShort] using short
  have short : broken.IsShort := ⟨List.forall_mem_nil _, root⟩
  obtain ⟨text, result, moved, -, count⟩ := @serialize_add .ruby broken short rfl 1 3 32
  exact ⟨short, rfl, text, result, moved, count⟩

end Documents

end RequestWriter.Literal
