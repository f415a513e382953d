import RequestWriter.Proofs.Literal.Quoted
import RequestWriter.Headers
import RequestWriter.Snippet.Payload

/-!
# Finding a declaration

A declaration is found in a source without knowledge of how the source was put together: it is the
first line that begins with the given words and is not inside a string literal. String literals are
skipped by the rules of the dialect, since a literal may run over several lines. What stands behind
the words is left to a reader of values, which must take the rest of the line.

Whatever a writer puts in front of the declaration has to be passed over: code without a delimiter,
string literals, and blocks of headers.
-/

namespace RequestWriter.Source

/-- Where the search stands. -/
inductive Place where
  | code (lineStart : Bool)
  | literal

/-- The text behind the first line of code that begins with the words. -/
def behind? (d : Dialect) (words : List Char) : Place → List Char → Option (List Char)
  | _, [] => none
  | .code lineStart, c :: rest =>
    if lineStart ∧ words.isPrefixOf (c :: rest) then some ((c :: rest).drop words.length)
    else if c = d.delimiter then behind? d words .literal rest
    else behind? d words (.code (c == '\n')) rest
  | .literal, [_] => none
  | .literal, a :: b :: rest =>
    match d.unescape? a b with
    | some _ => behind? d words .literal rest
    | none =>
      if a = d.delimiter then behind? d words (.code false) (b :: rest)
      else behind? d words .literal (b :: rest)

/-- What the first line of code that begins with the words declares, if `read` takes all of the line
but for `post`. -/
def declared? {α : Type} (d : Dialect) (words post : String)
    (read : List Char → Option (α × List Char)) (source : String) : Option α :=
  (behind? d words.toList (.code true) source.toList).bind fun cs =>
    (read cs).bind fun (a, rest) =>
      if (post.toList ++ ['\n']).isPrefixOf rest then some a else none

/-- The search gets over a text, from one place to another. -/
def Passes (d : Dialect) (words : List Char) (p : Place) (cs : List Char) (q : Place) : Prop :=
  ∀ rest, behind? d words p (cs ++ rest) = behind? d words q rest

/-- The search gets over a line. -/
def Skips (d : Dialect) (words : List Char) (line : String) : Prop :=
  Passes d words (.code true) (line.toList ++ ['\n']) (.code true)

/-- Code within a line. -/
def Inert (d : Dialect) (cs : List Char) : Prop := ∀ c ∈ cs, c ≠ d.delimiter ∧ c ≠ '\n'

instance (d : Dialect) (cs : List Char) : Decidable (Inert d cs) := List.decidableBAll _ cs

/-- Whether two texts differ at a place that both of them have. -/
def apart : List Char → List Char → Bool
  | a :: as, b :: bs => a != b || apart as bs
  | _, _ => false

variable {d : Dialect} {words cs cs' : List Char} {p q q' : Place}

theorem isPrefixOf_of_apart (h : apart words cs = true) (rest : List Char) :
    words.isPrefixOf (cs ++ rest) = false := by
  induction words, cs using apart.induct with
  | case1 a as b bs ih =>
    rw [List.cons_append, List.isPrefixOf]
    by_cases same : a = b
    · rw [ih (by simpa [apart, same] using h), Bool.and_false]
    · simp [same]
  | case2 => simp [apart] at h

theorem apart_append (h : apart words cs = true) (cs' : List Char) :
    apart words (cs ++ cs') = true := by
  induction words, cs using apart.induct with
  | case1 a as b bs ih =>
    simp only [apart, Bool.or_eq_true] at h
    simp only [List.cons_append, apart, Bool.or_eq_true]
    exact h.imp_right ih
  | case2 => simp [apart] at h

namespace Passes

theorem append (h : Passes d words p cs q) (h' : Passes d words q cs' q') :
    Passes d words p (cs ++ cs') q' := by
  intro rest
  rw [List.append_assoc, h, h']

/-- A line that does not begin with the words is passed like any other code. -/
theorem start (differs : apart words cs = true) (h : Passes d words (.code false) cs q) :
    Passes d words (.code true) cs q := by
  intro rest
  have other := isPrefixOf_of_apart differs rest
  cases cs with
  | nil => cases words <;> simp [apart] at differs
  | cons c cs =>
    have passed := h rest
    rw [List.cons_append] at other passed ⊢
    rw [← passed]
    simp [behind?, other]

end Passes

theorem passes_code (words : List Char) (h : Inert d cs) :
    Passes d words (.code false) cs (.code false) := by
  intro rest
  induction cs with
  | nil => rfl
  | cons c cs ih =>
    obtain ⟨⟨noDelimiter, noNewline⟩, later⟩ := List.forall_mem_cons.mp h
    have inLine : (c == '\n') = false := beq_eq_false_iff_ne.mpr noNewline
    simp [behind?, noDelimiter, inLine, ih later]

theorem passes_newline (words : List Char) (h : d.delimiter ≠ '\n') :
    Passes d words (.code false) ['\n'] (.code true) := by
  intro rest
  simp [behind?, h.symm]

/-- An open literal is skipped up to the place at which the reader of literals ends it. -/
theorem behind?_of_unquotes (words : List Char) {s rest : List Char} (h : d.Unquotes cs s rest) :
    behind? d words .literal cs = behind? d words (.code false) rest := by
  induction h with
  | last => rfl
  | close plain => simp [behind?, plain]
  | escape escape _ ih => simp [behind?, escape, ih]
  | char plain other _ ih => simp [behind?, plain, other, ih]

/-- A literal is passed together with the character behind it, which shows that it has ended. -/
theorem passes_quote (words : List Char) (sound : d.Sound) (s : String) {c : Char}
    (other : c ≠ d.delimiter) :
    Passes d words (.code false) ((d.quote s).toList ++ [c]) (.code (c == '\n')) := by
  intro rest
  have closes : d.Closes (c :: rest) := by
    intro _ eq
    exact other (by simpa using eq)
  have body := behind?_of_unquotes words
    (Dialect.unquotes_of_unquote? (Dialect.unquote?_escaped sound s.toList closes))
  rw [Dialect.toList_quote]
  simpa [behind?, other] using body

section Lines

variable {t : Target} {pre mid post : String}

theorem delimiter_ne_newline (t : Target) : t.dialect.delimiter ≠ '\n' := by
  cases t <;> decide

/-- A literal and code behind it. -/
theorem passes_quote_code (words : List Char) (s : String) (nonempty : mid ≠ "")
    (h : Inert t.dialect mid.toList) :
    Passes t.dialect words (.code false) ((t.dialect.quote s).toList ++ mid.toList)
      (.code false) := by
  obtain ⟨c, cs, front⟩ := List.exists_cons_of_ne_nil (mt String.toList_eq_nil_iff.mp nonempty)
  rw [front] at h ⊢
  obtain ⟨⟨noDelimiter, noNewline⟩, later⟩ := List.forall_mem_cons.mp h
  have quoted := passes_quote words t.sound s noDelimiter
  rw [beq_eq_false_iff_ne.mpr noNewline] at quoted
  have whole := quoted.append (passes_code words later)
  rwa [List.append_assoc] at whole

/-- A literal and the code behind it up to the end of the line. -/
theorem passes_quote_line (words : List Char) (s : String) (h : Inert t.dialect post.toList) :
    Passes t.dialect words (.code false)
      ((t.dialect.quote s).toList ++ (post.toList ++ ['\n'])) (.code true) := by
  by_cases empty : post = ""
  · subst empty
    exact passes_quote words t.sound s (delimiter_ne_newline t).symm
  · have whole := (passes_quote_code words s empty h).append
      (passes_newline words (delimiter_ne_newline t))
    rwa [List.append_assoc] at whole

/-- A line of code. -/
theorem skips_code {line : String} (differs : apart words (line.toList ++ ['\n']) = true)
    (h : Inert t.dialect line.toList) : Skips t.dialect words line :=
  .start differs ((passes_code words h).append (passes_newline words (delimiter_ne_newline t)))

/-- A line with one literal. -/
theorem skips_quote {line s : String} (text : line = pre ++ t.dialect.quote s ++ post)
    (differs : apart words pre.toList = true) (hpre : Inert t.dialect pre.toList)
    (hpost : Inert t.dialect post.toList) : Skips t.dialect words line := by
  have passes := (passes_code words hpre).append (passes_quote_line words s hpost)
  rw [Skips, text, String.toList_append, String.toList_append, List.append_assoc,
    List.append_assoc]
  exact .start (apart_append differs _) passes

/-- A name and a value, each a literal. -/
theorem passes_pair (differs : apart words pre.toList = true) (hpre : Inert t.dialect pre.toList)
    (nonempty : mid ≠ "") (hmid : Inert t.dialect mid.toList) (name value : String) {c : Char}
    (other : c ≠ t.dialect.delimiter) :
    Passes t.dialect words (.code true)
      ((pre ++ t.dialect.quote name ++ mid ++ t.dialect.quote value).toList ++ [c])
      (.code (c == '\n')) := by
  have pair := ((passes_code words hpre).append
    (passes_quote_code words name nonempty hmid)).append (passes_quote words t.sound value other)
  have text : (pre ++ t.dialect.quote name ++ mid ++ t.dialect.quote value).toList ++ [c] =
      pre.toList ++ ((t.dialect.quote name).toList ++ mid.toList) ++
        ((t.dialect.quote value).toList ++ [c]) := by simp
  rw [text]
  refine .start ?_ pair
  rw [List.append_assoc]
  exact apart_append differs _

/-- Names with their values between commas, one pair a line. -/
theorem passes_pairs (differs : apart words pre.toList = true)
    (hpre : Inert t.dialect pre.toList) (nonempty : mid ≠ "")
    (hmid : Inert t.dialect mid.toList) (headers : Headers) (some : headers ≠ []) :
    Passes t.dialect words (.code true)
      ((Text.join ",\n" (headers.map fun (name, value) =>
        pre ++ t.dialect.quote name ++ mid ++ t.dialect.quote value)).toList ++ ['\n'])
      (.code true) := by
  have comma : ',' ≠ t.dialect.delimiter := by
    cases t <;> decide
  induction headers with
  | nil => exact absurd rfl some
  | cons header headers ih =>
    cases headers with
    | nil => exact passes_pair differs hpre nonempty hmid _ _ (delimiter_ne_newline t).symm
    | cons next headers =>
      have line := (passes_pair differs hpre nonempty hmid header.1 header.2
        comma).append (passes_newline words (delimiter_ne_newline t))
      have whole := line.append (ih (by simp))
      simp only [List.map_cons] at whole ⊢
      rw [Text.join_cons_cons]
      simpa using whole

/-- A block of headers. -/
theorem skips_block {indent closing : String} (hpre : Inert t.dialect pre.toList)
    (differs : apart words pre.toList = true) (hindent : Inert t.dialect indent.toList)
    (inside : apart words indent.toList = true)
    (hend : Inert t.dialect (closing ++ "\x7d" ++ post).toList)
    (outside : apart words ((closing ++ "\x7d" ++ post).toList ++ ['\n']) = true)
    (headers : Headers) :
    Skips t.dialect words (pre ++ headers.block t.dialect indent closing ++ post) := by
  have nonempty : t.dialect.keySeparator ≠ "" := by
    cases t <;> decide
  have separator : Inert t.dialect t.dialect.keySeparator.toList := by
    cases t <;> decide
  have opening : Inert t.dialect ['\x7b'] := by
    cases t <;> decide
  have bracket : Inert t.dialect ['\x7d'] := by
    cases t <;> decide
  have line := passes_code words hpre
  unfold Headers.block
  split
  · have last : Inert t.dialect post.toList := fun c mem => hend c (by simp [mem])
    have brackets := (line.append (passes_code words opening)).append (passes_code words bracket)
    have whole := brackets.append
      ((passes_code words last).append (passes_newline words (delimiter_ne_newline t)))
    refine Passes.start ?_ (by simpa using whole)
    simpa using apart_append differs _
  · next some =>
    have pairs := passes_pairs (t := t) inside hindent nonempty separator headers
      (by simpa using some)
    have opened := (line.append (passes_code words opening)).append
      (passes_newline words (delimiter_ne_newline t))
    have whole := (opened.append pairs).append (skips_code outside hend)
    refine Passes.start ?_ (by simpa using whole)
    simpa using apart_append differs _

end Lines

section Declarations

theorem passes_lines {lines : List String} (h : ∀ line ∈ lines, Skips d words line) :
    Passes d words (.code true) (lines.flatMap fun line => line.toList ++ ['\n'])
      (.code true) := by
  induction lines with
  | nil => exact fun _ => rfl
  | cons line lines ih =>
    obtain ⟨first, others⟩ := List.forall_mem_cons.mp h
    exact first.append (ih others)

theorem toList_ofLines (before : List String) (line : String) {after : List String}
    (more : after ≠ []) :
    (ofLines (before ++ line :: after)).toList =
      (before.flatMap fun line => line.toList ++ ['\n']) ++
        (line.toList ++ '\n' :: (ofLines after).toList) := by
  induction before with
  | nil =>
    obtain ⟨next, after, rfl⟩ := List.exists_cons_of_ne_nil more
    simp [ofLines, Text.join_cons_cons]
  | cons first before ih =>
    obtain ⟨next, others, front⟩ := List.exists_cons_of_ne_nil
      (l := before ++ line :: after) (by simp)
    rw [List.cons_append, front, ofLines, Text.join_cons_cons, ← front, String.toList_append,
      String.toList_append]
    rw [ofLines] at ih
    simp [ih]

theorem behind?_words (nonempty : words ≠ []) (rest : List Char) :
    behind? d words (.code true) (words ++ rest) = some rest := by
  obtain ⟨c, cs, rfl⟩ := List.exists_cons_of_ne_nil nonempty
  have here : (c :: cs).isPrefixOf (c :: cs ++ rest) = true :=
    List.isPrefixOf_iff_prefix.mpr (List.prefix_append _ _)
  rw [List.cons_append] at here ⊢
  simp [behind?, here]

/-- A declaration is found behind lines that the search gets over. -/
theorem declared?_ofLines {α : Type} {read : List Char → Option (α × List Char)} {a : α}
    {words text post : String} (named : words ≠ "") {before after : List String}
    (skips : ∀ line ∈ before, Skips d words.toList line) (more : after ≠ [])
    (reads : ∀ rest, read (text.toList ++ (post.toList ++ '\n' :: rest)) =
      some (a, post.toList ++ '\n' :: rest)) :
    declared? d words post read (ofLines (before ++ (words ++ text ++ post) :: after)) =
      some a := by
  have found : behind? d words.toList (.code true)
      (ofLines (before ++ (words ++ text ++ post) :: after)).toList =
      some (text.toList ++ (post.toList ++ '\n' :: (ofLines after).toList)) := by
    rw [toList_ofLines before _ more, passes_lines skips]
    simp only [String.toList_append, List.append_assoc]
    exact behind?_words (mt String.toList_eq_nil_iff.mp named) _
  have ended : (post.toList ++ ['\n']).isPrefixOf
      (post.toList ++ '\n' :: (ofLines after).toList) = true :=
    List.isPrefixOf_iff_prefix.mpr ⟨(ofLines after).toList, by simp⟩
  rw [declared?, found, Option.bind_some, reads, Option.bind_some]
  exact if_pos ended

end Declarations

end RequestWriter.Source
