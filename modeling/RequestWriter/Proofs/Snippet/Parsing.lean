import RequestWriter.Proofs.Json.Reading
import RequestWriter.Proofs.Snippet.Closed

/-!
# Parsers of Python

A parser accepts the forms that client code is written in, and refuses a source with a literal that
is cut off. What it says about a snippet does not depend on what else it knows of the language. The
check of literals and brackets is such a parser: by induction on a form, it is read from code to
code.
-/

namespace RequestWriter

namespace Python

open Closed

variable {s source : String} {depth levels width : Nat} {kind : Kind}

section Code

theorem isAlphanum_of_isName (named : isName s = true) :
    ∀ c ∈ s.toList, c.isAlphanum = true ∨ c = '_' := by
  intro c mem
  unfold isName at named
  split at named
  case h_1 => cases named
  case h_2 first rest eq =>
    simp only [Bool.and_eq_true, Bool.or_eq_true, beq_iff_eq, List.all_eq_true] at named
    rw [eq] at mem
    rcases List.mem_cons.mp mem with rfl | later
    · exact named.1.1.imp_left fun alpha => by rw [Char.isAlphanum, alpha, Bool.true_or]
    · simpa [isNameChar] using named.1.2 c later

theorem balanced_of_isName (named : isName s = true) : balanced [] s.toList = true := by
  refine balanced_plain fun c mem => ?_
  rcases isAlphanum_of_isName named c mem with alphanum | rfl
  · exact isPlain_of_isAlphanum alphanum
  · rfl

theorem balanced_number {v : Value} (numeral : Json.Grammar.Number s.toList v) :
    balanced [] s.toList = true :=
  balanced_plain (isPlain_of_mem_number numeral)

theorem balanced_gap (gap : Gap) : balanced [] gap.val.toList = true := by
  refine balanced_plain fun c mem => ?_
  rcases gap.property c mem with rfl | rfl <;> rfl

theorem balanced_margin (width : Nat) : balanced [] (margin width).toList = true := by
  refine balanced_plain fun c mem => ?_
  rw [margin, String.toList_ofList] at mem
  rw [List.eq_of_mem_replicate mem]
  rfl

end Code

section Forms

/-- The inside of a display: items with commas between them, and white space at the end. -/
theorem passes_display {items : List String} (h : ∀ s ∈ items, Passes s) (gap : Gap) {o c : Char}
    {opening closing : String} (pair : partner? c = some o) (front : opening.toList = [o])
    (back : closing.toList = [c]) :
    Passes (opening ++ (Text.join "," items ++ gap) ++ closing) := by
  have white : gap.val.toList.head? ≠ some '"' := by
    intro head
    have mem := List.mem_of_head? head
    rcases gap.property '"' mem with eq | eq <;> cases eq
  exact ((Passes.join "," (by decide) (by simp) h).append (.code (balanced_gap gap)) white).bracket
    pair front back

/-- An expression is read from code to code. -/
theorem Form.passes (form : Form kind depth s) : Passes s := by
  induction form with
  | name named => exact .code (balanced_of_isName named)
  | member _ named ih =>
    exact ih.append (.behind "." (by decide) (.code (balanced_of_isName named))) (by simp)
  | @call _ _ positional named _ _ names _ _ receiver values namedValues =>
    have arguments : ∀ text ∈ positional ++ named.map Keyword.source, Passes text := by
      intro text mem
      rcases List.mem_append.mp mem with mem | mem
      · exact values text mem
      · obtain ⟨k, hk, rfl⟩ := List.mem_map.mp mem
        exact ((namedValues k hk).behind "=" (by decide)).behind k.name
          (balanced_of_isName (names k hk))
    have inside := (Passes.join ", " (by decide) (by simp) arguments).bracket (c := ')') rfl
      (show "(".toList = ['('] from rfl) (show ")".toList = [')'] from rfl)
    exact receiver.append inside (by simp)
  | primary _ ih => exact ih
  | constant known =>
    have plain : ∀ s ∈ ["None", "True", "False"], balanced [] s.toList = true := by decide
    exact .code (plain _ known)
  | number numeral => exact .code (balanced_number numeral)
  | text chars => exact .text chars
  | @list _ items gap _ ih =>
    refine passes_display ?_ gap (c := ']') rfl rfl rfl
    rw [List.forall_mem_map]
    exact fun i mem => (ih i mem).behind i.gap (balanced_gap i.gap)
  | @dictionary _ entries gap _ _ keys values =>
    refine passes_display ?_ gap (c := '\x7d') rfl rfl rfl
    rw [List.forall_mem_map]
    intro e mem
    have value := ((values e mem).behind e.gap' (balanced_gap e.gap')).behind ":" (by decide)
    exact ((keys e mem).append value (by simp)).behind e.gap (balanced_gap e.gap)

theorem Simple.passes (statement : Simple s) : Passes s := by
  cases statement with
  | importing named => exact .behind "import " (by decide) (.code (balanced_of_isName named))
  | assignment named value =>
    exact (value.passes.behind " = " (by decide)).behind _ (balanced_of_isName named)
  | expression value => exact value.passes

theorem Block.passes (block : Block levels width s) : Passes s := by
  induction block with
  | line statement => exact statement.passes.behind _ (balanced_margin _)
  | within _ context named _ ih =>
    have bound := (ih.behind ":\n" (by decide)).behind _ (balanced_of_isName named)
    have whole := context.passes.append (bound.behind " as " (by decide)) (by simp)
    exact (whole.behind "with " (by decide)).behind _ (balanced_margin _)
  | blank _ ih => exact ih.behind "\n" (by decide)
  | next _ _ first rest => exact first.append (rest.behind "\n" (by decide)) (by simp)

end Forms

section Ends

/-- A text whose last character is no newline. -/
def EndsInLine (s : String) : Prop := ∃ cs c, s.toList = cs ++ [c] ∧ c ≠ '\n'

theorem EndsInLine.behind (pre : String) (h : EndsInLine s) : EndsInLine (pre ++ s) := by
  obtain ⟨cs, c, eq, other⟩ := h
  exact ⟨pre.toList ++ cs, c, by rw [String.toList_append, eq, List.append_assoc], other⟩

theorem endsInLine_of_notMem (nonempty : s.toList ≠ []) (plain : '\n' ∉ s.toList) :
    EndsInLine s := by
  refine ⟨s.toList.dropLast, s.toList.getLast nonempty,
    (List.dropLast_concat_getLast nonempty).symm, ?_⟩
  intro newline
  exact plain (newline ▸ List.getLast_mem nonempty)

theorem endsInLine_of_isName (named : isName s = true) : EndsInLine s := by
  refine endsInLine_of_notMem ?_ fun mem => ?_
  · intro empty
    rw [isName, empty] at named
    cases named
  · rcases isAlphanum_of_isName named '\n' mem with h | h <;> cases h

theorem endsInLine_of_number {v : Value} (numeral : Json.Grammar.Number s.toList v) :
    EndsInLine s := by
  refine endsInLine_of_notMem ?_ fun mem => ?_
  · obtain ⟨c, cs, eq, -⟩ := Json.number_front numeral
    simp [eq]
  · rcases Json.mem_number numeral '\n' mem with h | h
    · cases h
    · simp at h

theorem Form.endsInLine (form : Form kind depth s) : EndsInLine s := by
  induction form with
  | name named => exact endsInLine_of_isName named
  | member _ named _ => exact ((endsInLine_of_isName named).behind ".").behind _
  | call => exact (EndsInLine.behind _ ⟨[], ')', rfl, by decide⟩).behind _
  | primary _ ih => exact ih
  | constant known =>
    simp only [List.mem_cons, List.not_mem_nil, or_false] at known
    rcases known with rfl | rfl | rfl <;> exact endsInLine_of_notMem (by decide) (by decide)
  | number numeral => exact endsInLine_of_number numeral
  | text => exact .behind _ ⟨[], '"', rfl, by decide⟩
  | list => exact .behind _ ⟨[], ']', rfl, by decide⟩
  | dictionary => exact .behind _ ⟨[], '\x7d', rfl, by decide⟩

theorem Block.endsInLine (block : Block levels width s) : EndsInLine s := by
  induction block with
  | line statement =>
    cases statement with
    | importing named => exact ((endsInLine_of_isName named).behind _).behind _
    | assignment _ value => exact ((value.endsInLine.behind _).behind _).behind _
    | expression value => exact value.endsInLine.behind _
  | within _ _ _ _ ih => exact ((((ih.behind _).behind _).behind _).behind _).behind _ |>.behind _
  | blank _ ih => exact ih.behind _
  | next _ _ _ ih => exact (ih.behind _).behind _

end Ends

/-- A source of these forms passes the check. -/
theorem Valid.problem?_eq_none (valid : Valid source) : Closed.problem? source = none := by
  obtain ⟨cs, c, ends, other⟩ := valid.statements.endsInLine
  rw [String.toList_ofList] at ends
  have same : dropLastNewline (Text.unifyLineEnds source.toList) =
      Text.unifyLineEnds source.toList := by
    rw [ends, dropLastNewline]
    simp [other]
  have unified : Text.unifyLineEnds (Text.unifyLineEnds source.toList) =
      Text.unifyLineEnds source.toList :=
    Text.unifyLineEnds_of_notMem fun mem => (Text.mem_unifyLineEnds mem).1 rfl
  obtain ⟨line, read⟩ := valid.statements.passes 1 [] [] (by simp)
  rw [String.toList_ofList, List.append_nil, unified] at read
  rw [Closed.problem?, if_neg (by simpa using valid.noNull), same, read]
  rfl

/-- What is known of a parser: it accepts sources of the forms above, and it refuses a source with a
literal that is cut off or with a null character. -/
class Parser.IsUsual [Parser] : Prop where
  accepts {source : String} (valid : Valid source) : Parser.problem? source = none
  refuses_cut {source : String} (cut : IsCut source) : Parser.problem? source ≠ none
  refuses_null {source : String} (null : '\x00' ∈ source.toList) : Parser.problem? source ≠ none

/-- The check of literals and brackets is a usual parser. -/
instance : Parser.IsUsual where
  accepts valid := Option.map_eq_none_iff.mpr valid.problem?_eq_none
  refuses_cut cut := mt Option.map_eq_none_iff.mp (problem?_ne_none_of_isCut cut)
  refuses_null {source} null := by
    have contained : source.toList.contains '\x00' = true := List.contains_iff_mem.mpr null
    refine mt Option.map_eq_none_iff.mp ?_
    rw [Closed.problem?, if_pos contained]
    exact nofun

end Python

end RequestWriter
