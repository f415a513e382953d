import RequestWriter.Proofs.Json.Nesting
import RequestWriter.Proofs.Literal.Quoted
import RequestWriter.Proofs.Snippet.Syntax
import RequestWriter.Proofs.Text.LineEnds
import RequestWriter.Snippet.Closed
import RequestWriter.Snippet.Python
import Mathlib.Tactic.ByContra
import Mathlib.Tactic.SplitIfs

/-!
# Texts that are closed

What the check of Python sources makes of a text that is put together from code and string literals,
wherever the text stands. Code passes when its brackets are in order, and a literal passes that ends
on its line. Texts that pass can be put one behind the other, joined, and set between brackets. A
literal that is cut off at the end of its line is a problem, whatever stands around it.
-/

namespace RequestWriter.Closed

open Text

variable {cs ds rest : List Char}

section LineEnds

/-- Line ends never become a quotation mark. -/
theorem head?_unifyLineEnds (front : cs.head? ≠ some '"') :
    (unifyLineEnds cs).head? ≠ some '"' := by
  fun_cases unifyLineEnds cs with
  | case1 => simp
  | case2 | case3 => simp
  | case4 => exact front

end LineEnds

section Literals

theorem quote_eq (s : String) : Python.dialect.quote s =
    "\"" ++ String.ofList (s.toList.flatMap Python.dialect.escapeChar) ++ "\"" := by
  apply String.toList_injective
  rw [Dialect.toList_quote]
  simp [Python.dialect, Target.dialect]

variable {s : List Char}

theorem chars_escaped (noReturn : '\r' ∉ s) :
    Python.Chars (s.flatMap Python.dialect.escapeChar) := by
  induction s with
  | nil => exact .nil
  | cons c s ih =>
    obtain ⟨plain, later⟩ := not_or.mp (mt List.mem_cons.mpr noReturn)
    rw [List.flatMap_cons]
    simp only [Python.dialect, Target.dialect, Dialect.escapeChar]
    split_ifs with backslash quote newline
    · exact .escape (by decide) (ih later)
    · exact .escape (by decide) (ih later)
    · exact .escape (by decide) (ih later)
    · refine .plain ?_ (ih later)
      have other : c ≠ '\\' ∧ c ≠ '\n' := by simpa using And.intro backslash newline
      simp [quote, other, Ne.symm plain]

variable (start line : Nat) (opened : List (Char × Nat))

/-- Inside a literal, these characters are read as part of the literal. -/
theorem scan_chars (chars : Python.Chars cs) (more : List Char) :
    scan (.literal '"' false start) 0 line opened (unifyLineEnds (cs ++ more)) =
      scan (.literal '"' false start) 0 line opened (unifyLineEnds more) := by
  induction chars with
  | nil => rfl
  | plain other _ ih =>
    simp only [List.mem_cons, List.not_mem_nil, or_false, not_or] at other
    obtain ⟨quote, backslash, newline, noReturn⟩ := other
    rw [List.cons_append, unifyLineEnds_cons noReturn, scan]
    simp [quote, backslash, newline, ih]
  | @escape c _ letter _ ih =>
    have letters : ∀ c ∈ Python.escapes, c ≠ '\r' ∧ c ≠ '\n' := by
      simp [Python.escapes]
    obtain ⟨noReturn, newline⟩ := letters c letter
    rw [List.cons_append, List.cons_append, unifyLineEnds_cons (by decide),
      unifyLineEnds_cons noReturn]
    simp [scan, newline, ih]

theorem head?_chars (chars : Python.Chars cs) : cs.head? ≠ some '"' := by
  cases chars with
  | nil => simp
  | plain other =>
    rintro ⟨⟩
    exact other (by decide)
  | escape => simp

theorem no_prefix (front : cs.head? ≠ some '"') : ('"' :: ds).isPrefixOf cs = false := by
  cases cs with
  | nil => rfl
  | cons c cs =>
    have other : c ≠ '"' := by simpa using front
    simp [List.isPrefixOf, Ne.symm other]

/-- What follows the mark at the beginning of a literal does not make it a mark of three. -/
theorem twoMore_front (inside : cs.head? ≠ some '"') (behind : rest.head? ≠ some '"') :
    twoMore '"' (unifyLineEnds (cs ++ '"' :: rest)) = false := by
  cases cs with
  | nil =>
    rw [List.nil_append, unifyLineEnds_cons (by decide)]
    have next : ['"'].isPrefixOf (unifyLineEnds rest) = false :=
      no_prefix (head?_unifyLineEnds behind)
    simpa [twoMore, List.isPrefixOf] using next
  | cons c cs => exact no_prefix (head?_unifyLineEnds inside)

/-- The mark at the beginning of a literal is read alone. -/
theorem scan_mark (inside : cs.head? ≠ some '"') (behind : rest.head? ≠ some '"') :
    scan .code 0 line opened (unifyLineEnds ('"' :: (cs ++ '"' :: rest))) =
      scan (.literal '"' false line) 0 line opened (unifyLineEnds (cs ++ '"' :: rest)) := by
  rw [unifyLineEnds_cons (by decide), scan]
  simp [isMark, twoMore_front inside behind]

end Literals

section Code

/-- The code of a piece without literals and comments, with the brackets that are open. The piece
closes what it opens, and nothing else. -/
def balanced (opened : List Char) : List Char → Bool
  | [] => opened.isEmpty
  | c :: cs =>
    !(['\r', '\x00', '"', '\'', '#'].contains c) &&
      if opens c then balanced (c :: opened) cs
      else
        match partner? c with
        | none => balanced opened cs
        | some partner =>
          match opened with
          | [] => false
          | bracket :: outer => bracket == partner && balanced outer cs

/-- Whether a character is neither a bracket nor the beginning of a literal or a comment. -/
def isPlain (c : Char) : Bool :=
  !(['\r', '\x00', '"', '\'', '#', '(', ')', '[', ']', '\x7b', '\x7d'].contains c)

theorem balanced_plain (plain : ∀ c ∈ cs, isPlain c = true) : balanced [] cs = true := by
  induction cs with
  | nil => rfl
  | cons c cs ih =>
    rw [List.forall_mem_cons] at plain
    obtain ⟨here, later⟩ := plain
    simp only [isPlain, Bool.not_eq_true', List.contains_eq_mem, decide_eq_false_iff_not,
      List.mem_cons, List.not_mem_nil, or_false, not_or] at here
    have closes : partner? c = none := by
      unfold partner?
      split <;> simp_all
    simp [balanced, Closed.opens, here, closes, ih later]

theorem isPlain_of_isAlphanum {c : Char} (h : c.isAlphanum = true) : isPlain c = true := by
  by_contra special
  simp only [isPlain, Bool.not_eq_true', Bool.not_eq_false, List.contains_eq_mem,
    decide_eq_true_eq, List.mem_cons, List.not_mem_nil, or_false] at special
  rcases special with rfl | rfl | rfl | rfl | rfl | rfl | rfl | rfl | rfl | rfl | rfl <;> cases h

theorem isPlain_of_mem_number {v : Value} (numeral : Json.Grammar.Number cs v) :
    ∀ c ∈ cs, isPlain c = true := by
  intro c mem
  rcases Json.mem_number numeral c mem with digit | mark
  · exact isPlain_of_isAlphanum (by rw [Char.isAlphanum, digit, Bool.or_true])
  · simp only [List.mem_cons, List.not_mem_nil, or_false] at mark
    rcases mark with rfl | rfl | rfl | rfl | rfl <;> rfl

/-- Code whose brackets are in order is passed over, whatever follows. -/
theorem scan_balanced {opened : List (Char × Nat)} (h : balanced (opened.map Prod.fst) cs = true)
    (line : Nat) (outer : List (Char × Nat)) (rest : List Char) :
    ∃ line', scan .code 0 line (opened ++ outer) (unifyLineEnds (cs ++ rest)) =
      scan .code 0 line' outer (unifyLineEnds rest) := by
  induction cs generalizing opened line with
  | nil =>
    have none : opened = [] := by simpa [balanced] using h
    rw [none]
    exact ⟨line, rfl⟩
  | cons c cs ih =>
    rw [balanced, Bool.and_eq_true, Bool.not_eq_true', List.contains_eq_mem,
      decide_eq_false_iff_not] at h
    obtain ⟨plain, others⟩ := h
    simp only [List.mem_cons, List.not_mem_nil, or_false, not_or] at plain
    obtain ⟨noReturn, -, quote, mark, comment⟩ := plain
    have code : isMark c = false := by simp [isMark, quote, mark]
    rw [List.cons_append, unifyLineEnds_cons noReturn, scan]
    simp only [comment, code, if_false, Bool.false_eq_true]
    by_cases opening : opens c = true
    · rw [if_pos opening] at others ⊢
      exact @ih ((c, line) :: opened) others _
    · rw [if_neg opening] at others ⊢
      cases closes : partner? c with
      | none =>
        simp only [closes] at others ⊢
        exact ih others _
      | some partner =>
        simp only [closes] at others ⊢
        cases opened with
        | nil => cases others
        | cons bracket opened =>
          simp only [List.map_cons, Bool.and_eq_true, beq_iff_eq] at others
          obtain ⟨pair, others⟩ := others
          simp only [List.cons_append, pair, if_true]
          exact ih others _

end Code

/-- A text that is read from code to code, wherever it stands. -/
def Passes (s : String) : Prop :=
  ∀ line opened rest, rest.head? ≠ some '"' →
    ∃ line', scan .code 0 line opened (unifyLineEnds (s.toList ++ rest)) =
      scan .code 0 line' opened (unifyLineEnds rest)

section Brackets

variable {o c : Char}

theorem bracket_cases (pair : partner? c = some o) :
    (o = '(' ∧ c = ')') ∨ (o = '[' ∧ c = ']') ∨ (o = '\x7b' ∧ c = '\x7d') := by
  unfold partner? at pair
  split at pair <;> cases pair <;> simp

theorem scan_opening (pair : partner? c = some o) (line : Nat) (opened : List (Char × Nat)) :
    scan .code 0 line opened (unifyLineEnds (o :: rest)) =
      scan .code 0 line ((o, line) :: opened) (unifyLineEnds rest) := by
  rcases bracket_cases pair with ⟨rfl, -⟩ | ⟨rfl, -⟩ | ⟨rfl, -⟩ <;>
    (rw [unifyLineEnds_cons (by decide)]; simp [scan, isMark, Closed.opens])

theorem scan_closing (pair : partner? c = some o) (line line' : Nat)
    (opened : List (Char × Nat)) :
    scan .code 0 line ((o, line') :: opened) (unifyLineEnds (c :: rest)) =
      scan .code 0 line opened (unifyLineEnds rest) := by
  rcases bracket_cases pair with ⟨rfl, rfl⟩ | ⟨rfl, rfl⟩ | ⟨rfl, rfl⟩ <;>
    (rw [unifyLineEnds_cons (by decide)]; simp [scan, isMark, Closed.opens, partner?])

theorem head?_closing (pair : partner? c = some o) : (c :: rest).head? ≠ some '"' := by
  rcases bracket_cases pair with ⟨-, rfl⟩ | ⟨-, rfl⟩ | ⟨-, rfl⟩ <;> simp

end Brackets

theorem head?_append {t : String} (mark : t.toList.head? ≠ some '"')
    (behind : rest.head? ≠ some '"') : (t.toList ++ rest).head? ≠ some '"' := by
  cases chars : t.toList with
  | nil => exact behind
  | cons c cs => rwa [chars] at mark

namespace Passes

variable {s t opening closing : String} {ss : List String}

theorem code (h : balanced [] s.toList = true) : Passes s :=
  fun line opened rest _ => @scan_balanced s.toList [] h line opened rest

theorem text (chars : Python.Chars cs) : Passes ("\"" ++ String.ofList cs ++ "\"") := by
  intro line opened rest front
  have eq : ("\"" ++ String.ofList cs ++ "\"").toList ++ rest = '"' :: (cs ++ '"' :: rest) := by
    simp
  refine ⟨line, ?_⟩
  rw [eq, scan_mark line opened (head?_chars chars) front, scan_chars line line opened chars,
    unifyLineEnds_cons (by decide)]
  simp [scan]

theorem append (hs : Passes s) (ht : Passes t) (mark : t.toList.head? ≠ some '"') :
    Passes (s ++ t) := by
  intro line opened rest front
  obtain ⟨middle, first⟩ := hs line opened (t.toList ++ rest) (head?_append mark front)
  obtain ⟨last, second⟩ := ht middle opened rest front
  rw [String.toList_append, List.append_assoc]
  exact ⟨last, first.trans second⟩

/-- A text behind code. -/
theorem behind (pre : String) (h : balanced [] pre.toList = true) (hs : Passes s) :
    Passes (pre ++ s) := by
  intro line opened rest front
  obtain ⟨middle, first⟩ := @scan_balanced pre.toList [] h line opened (s.toList ++ rest)
  obtain ⟨last, second⟩ := hs middle opened rest front
  rw [String.toList_append, List.append_assoc]
  exact ⟨last, first.trans second⟩

/-- A text between brackets of one kind. -/
theorem bracket {o c : Char} (pair : partner? c = some o) (front : opening.toList = [o])
    (back : closing.toList = [c]) (hs : Passes s) : Passes (opening ++ s ++ closing) := by
  intro line opened rest _
  have chars : (opening ++ s ++ closing).toList ++ rest = o :: (s.toList ++ c :: rest) := by
    simp [front, back]
  obtain ⟨last, inner⟩ := hs line ((o, line) :: opened) (c :: rest) (head?_closing pair)
  rw [chars, scan_opening pair, inner, scan_closing pair]
  exact ⟨last, rfl⟩

/-- Texts with code between them. -/
theorem join (sep : String) (code : balanced [] sep.toList = true)
    (mark : ∀ s, (sep ++ s).toList.head? ≠ some '"') (h : ∀ s ∈ ss, Passes s) :
    Passes (Text.join sep ss) := by
  induction ss with
  | nil => exact .code rfl
  | cons s ss ih =>
    rw [List.forall_mem_cons] at h
    cases ss with
    | nil => exact h.1
    | cons next ss =>
      rw [Text.join_cons_cons, String.append_assoc]
      exact h.1.append ((ih h.2).behind sep code) (mark _)

end Passes

section Cut

open Python (Spot cutOff IsCut)

variable {line : Nat} {opened : List (Char × Nat)}

/-- The spot of a reader of literals as a place of the check, with the characters to be skipped. -/
inductive Stands : Spot → Place → Nat → Prop
  | code (free : Bool) : Stands (.code free) .code 0
  | literal (start : Nat) : Stands .literal (.literal '"' false start) 0
  | escaped (start : Nat) : Stands .escaped (.literal '"' false start) 1

/-- A problem behind a character of code, whatever is open there, is one in front of it. -/
theorem scan_code_ne_none {c : Char} (quote : c ≠ '"') (mark : c ≠ '\'') (comment : c ≠ '#')
    (later : ∀ line opened, scan .code 0 line opened cs ≠ none) :
    scan .code 0 line opened (c :: cs) ≠ none := by
  rw [scan]
  simp only [isMark, quote, mark, comment, if_false, beq_iff_eq, Bool.or_eq_true, or_false]
  split
  · exact later _ _
  · cases partner? c with
    | none => exact later _ _
    | some partner =>
      cases opened with
      | nil => simp
      | cons bracket outer =>
        dsimp only
        split
        · exact later _ _
        · simp

/-- A literal that goes on to be cut off does not begin with two more marks. -/
theorem not_twoMore_of_cutOff (h : cutOff .literal cs = true) : twoMore '"' cs = false := by
  match cs with
  | [] | [_] => simp [twoMore, List.isPrefixOf]
  | c :: d :: cs =>
    by_contra marks
    obtain ⟨rfl, rfl⟩ : '"' = c ∧ '"' = d := by simpa [twoMore, List.isPrefixOf] using marks
    cases h

/-- Where a reader of literals finds one cut off, the check has a problem. -/
theorem scan_ne_none_of_cutOff {spot : Spot} {place : Place} {skip : Nat}
    (stands : Stands spot place skip) (h : cutOff spot cs = true) :
    scan place skip line opened cs ≠ none := by
  induction cs generalizing spot place skip line opened with
  | nil =>
    cases stands with
    | code => cases h
    | literal | escaped => simp [scan]
  | cons c cs ih =>
    cases stands with
    | code free =>
      rw [cutOff] at h
      split_ifs at h with quote other
      · obtain ⟨-, later⟩ := Bool.and_eq_true_iff.mp h
        have single := not_twoMore_of_cutOff later
        rw [scan]
        simpa [quote, isMark, single] using ih (.literal line) later
      · simp only [Bool.or_eq_true, decide_eq_true_eq, not_or] at other
        exact scan_code_ne_none quote other.1 other.2 fun _ _ => ih (.code _) h
    | literal start =>
      rw [cutOff] at h
      rw [scan]
      by_cases quote : c = '"'
      · rw [if_pos quote] at h
        simpa [quote] using ih (.code false) h
      · rw [if_neg quote] at h
        by_cases backslash : c = '\\'
        · rw [if_pos backslash] at h
          simpa [backslash] using ih (.escaped start) h
        · rw [if_neg backslash] at h
          by_cases newline : c = '\n'
          · simp [newline]
          · have later : cutOff .literal cs = true := by simpa [newline] using h
            simpa [quote, backslash, newline] using ih (.literal start) later
    | escaped start =>
      rw [cutOff] at h
      rw [scan]
      exact ih (.literal start) h

/-- A newline at the end does not close a literal. -/
theorem cutOff_of_concat {spot : Spot} (h : cutOff spot (cs ++ ['\n']) = true) :
    cutOff spot cs = true := by
  induction cs generalizing spot with
  | nil =>
    cases spot with
    | code => cases h
    | literal | escaped => rfl
  | cons c cs ih =>
    cases spot with
    | code free =>
      rw [List.cons_append, cutOff] at h
      rw [cutOff]
      split_ifs at h ⊢ with quote other
      · rw [Bool.and_eq_true] at h ⊢
        exact ⟨h.1, ih h.2⟩
      · exact ih h
    | literal =>
      rw [List.cons_append, cutOff] at h
      rw [cutOff]
      split_ifs at h ⊢ with quote backslash
      · exact ih h
      · exact ih h
      · rw [Bool.or_eq_true] at h ⊢
        exact h.imp_right ih
    | escaped => exact ih h

/-- A source with a literal that is cut off does not pass the check. -/
theorem problem?_ne_none_of_isCut {source : String} (h : IsCut source) :
    problem? source ≠ none := by
  have cut : cutOff (.code true) (dropLastNewline (unifyLineEnds source.toList)) = true := by
    unfold dropLastNewline
    split
    · next rest ends =>
      have whole : unifyLineEnds source.toList = rest.reverse ++ ['\n'] := by
        rw [← List.reverse_reverse (unifyLineEnds source.toList), ends, List.reverse_cons]
      exact cutOff_of_concat (whole ▸ h)
    · exact h
  rw [problem?]
  split
  · simp
  · exact scan_ne_none_of_cutOff (.code true) cut

end Cut

end RequestWriter.Closed
