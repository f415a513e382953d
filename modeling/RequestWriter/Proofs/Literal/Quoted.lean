import RequestWriter.Literal.Dialect
import Mathlib.Tactic.SplitIfs

/-!
# Reading string literals

A reader of string literals that goes by the row of a dialect: two characters that are an escape
sequence of the row stand for one character, the first delimiter that belongs to no escape sequence
ends the literal, and any other character stands for itself. What `quote` writes is read back up to
its closing delimiter. Where the delimiter is escaped by doubling it, the text behind the literal
must not begin with another one.
-/

namespace RequestWriter.Dialect

/-- What two characters inside a literal stand for, if they are an escape sequence. -/
def unescape? (d : Dialect) (a b : Char) : Option Char :=
  if d.escapesBackslash ∧ a = '\\' ∧ b = '\\' then some '\\'
  else if [a, b] = d.escapedDelimiter then some d.delimiter
  else if d.escapesNewline ∧ a = '\\' ∧ b = 'n' then some '\n'
  else none

/-- The text of a literal behind its opening delimiter, and what follows the closing one. -/
def unquote? (d : Dialect) : List Char → Option (List Char × List Char)
  | [] => none
  | [a] => if a = d.delimiter then some ([], []) else none
  | a :: b :: rest =>
    match d.unescape? a b with
    | some c => (unquote? d rest).map fun p => (c :: p.1, p.2)
    | none =>
      if a = d.delimiter then some ([], b :: rest)
      else (unquote? d (b :: rest)).map fun p => (a :: p.1, p.2)

/-- How a literal is read: its text, from behind the opening delimiter, and what follows. -/
inductive Unquotes (d : Dialect) : List Char → List Char → List Char → Prop
  | last : Unquotes d [d.delimiter] [] []
  | close {b : Char} {rest : List Char} (plain : d.unescape? d.delimiter b = none) :
      Unquotes d (d.delimiter :: b :: rest) [] (b :: rest)
  | escape {a b c : Char} {cs s rest : List Char} (escape : d.unescape? a b = some c)
      (more : Unquotes d cs s rest) : Unquotes d (a :: b :: cs) (c :: s) rest
  | char {a b : Char} {cs s rest : List Char} (plain : d.unescape? a b = none)
      (other : a ≠ d.delimiter) (more : Unquotes d (b :: cs) s rest) :
      Unquotes d (a :: b :: cs) (a :: s) rest

/-- The two ways in which the rows protect the delimiter. -/
inductive Sound (d : Dialect) : Prop
  /-- A backslash in front of the delimiter, the newline and itself. -/
  | backslash (doubled : d.escapesBackslash = true) (newline : d.escapesNewline = true)
      (delimiter : d.escapedDelimiter = ['\\', d.delimiter]) (noBackslash : d.delimiter ≠ '\\')
      (noLetter : d.delimiter ≠ 'n') (noNewline : d.delimiter ≠ '\n')
  /-- The delimiter doubled, and nothing else. -/
  | doubled (backslash : d.escapesBackslash = false) (newline : d.escapesNewline = false)
      (delimiter : d.escapedDelimiter = [d.delimiter, d.delimiter])

/-- The text does not go on with the delimiter, where that could be taken for an escape. -/
def Closes (d : Dialect) (rest : List Char) : Prop :=
  d.escapesBackslash = false → rest.head? ≠ some d.delimiter

variable {d : Dialect}

theorem unescape?_plain (h : d.Sound) {c : Char} (noDelimiter : c ≠ d.delimiter)
    (noBackslash : d.escapesBackslash = true → c ≠ '\\') (b : Char) : d.unescape? c b = none := by
  cases h with
  | backslash doubled newline delimiter => simp [unescape?, delimiter, noBackslash doubled]
  | doubled backslash newline delimiter =>
    simp [unescape?, delimiter, backslash, newline, noDelimiter]

theorem unquote?_plain (h : d.Sound) {c : Char} (noDelimiter : c ≠ d.delimiter)
    (noBackslash : d.escapesBackslash = true → c ≠ '\\') (cs : List Char) :
    d.unquote? (c :: cs) = (d.unquote? cs).map fun p => (c :: p.1, p.2) := by
  cases cs with
  | nil => simp [unquote?, noDelimiter]
  | cons b cs => simp [unquote?, unescape?_plain h noDelimiter noBackslash, noDelimiter]

theorem unquote?_escape {a b c : Char} (h : d.unescape? a b = some c) (cs : List Char) :
    d.unquote? (a :: b :: cs) = (d.unquote? cs).map fun p => (c :: p.1, p.2) := by
  simp [unquote?, h]

/-- The cases of the reader, for those who go over a literal in another way. -/
theorem unquotes_of_unquote? {cs s rest : List Char} (h : d.unquote? cs = some (s, rest)) :
    d.Unquotes cs s rest := by
  induction cs using unquote?.induct d generalizing s with
  | case1 => cases h
  | case2 =>
    rw [unquote?, if_pos rfl, Option.some.injEq, Prod.mk.injEq] at h
    obtain ⟨rfl, rfl⟩ := h
    exact .last
  | case3 a other =>
    rw [unquote?, if_neg other] at h
    cases h
  | case4 a b more c escape ih =>
    rw [unquote?_escape escape, Option.map_eq_some_iff] at h
    obtain ⟨⟨s, rest⟩, body, eq⟩ := h
    cases eq
    exact .escape escape (ih body)
  | case5 b more plain =>
    simp only [unquote?, plain, if_true, Option.some.injEq, Prod.mk.injEq] at h
    obtain ⟨rfl, rfl⟩ := h
    exact .close plain
  | case6 a b more plain other ih =>
    simp only [unquote?, plain, other, if_false, Option.map_eq_some_iff] at h
    obtain ⟨⟨s, rest⟩, body, eq⟩ := h
    cases eq
    exact .char plain other (ih body)

/-- What a character becomes inside a literal is read as that character. -/
theorem unquote?_escapeChar (h : d.Sound) (c : Char) (cs : List Char) :
    d.unquote? (d.escapeChar c ++ cs) = (d.unquote? cs).map fun p => (c :: p.1, p.2) := by
  unfold escapeChar
  split
  · next isBackslash =>
    obtain ⟨rfl, doubled⟩ := isBackslash
    exact unquote?_escape (by simp [unescape?, doubled]) cs
  · next noBackslash =>
    have noBackslash : d.escapesBackslash = true → c ≠ '\\' :=
      fun doubled eq => noBackslash ⟨eq, doubled⟩
    split
    · next isDelimiter =>
      subst isDelimiter
      cases h with
      | backslash doubled newline delimiter noBackslash noLetter noNewline =>
        rw [delimiter]
        exact unquote?_escape (by simp [unescape?, delimiter, noBackslash]) cs
      | doubled backslash newline delimiter =>
        rw [delimiter]
        exact unquote?_escape (by simp [unescape?, delimiter, backslash]) cs
    · next noDelimiter =>
      split
      · next isNewline =>
        obtain ⟨rfl, newline⟩ := isNewline
        cases h with
        | backslash doubled newline delimiter _ noLetter =>
          exact unquote?_escape
            (by simp [unescape?, delimiter, newline, Ne.symm noLetter]) cs
        | doubled backslash off => simp [off] at newline
      · exact unquote?_plain h noDelimiter noBackslash cs

theorem unquote?_delimiter (h : d.Sound) {rest : List Char} (closes : d.Closes rest) :
    d.unquote? (d.delimiter :: rest) = some ([], rest) := by
  cases rest with
  | nil => simp [unquote?]
  | cons b rest =>
    have none : d.unescape? d.delimiter b = none := by
      cases h with
      | backslash doubled newline delimiter noBackslash =>
        simp [unescape?, delimiter, noBackslash]
      | doubled backslash newline delimiter =>
        have other : b ≠ d.delimiter := by
          have := closes backslash
          simpa using this
        simp [unescape?, delimiter, backslash, newline, other]
    simp [unquote?, none]

/-- A literal ends where its writer ended it, and stands for the text that was written. -/
theorem unquote?_escaped (h : d.Sound) (s : List Char) {rest : List Char}
    (closes : d.Closes rest) :
    d.unquote? (s.flatMap d.escapeChar ++ d.delimiter :: rest) = some (s, rest) := by
  induction s with
  | nil => exact unquote?_delimiter h closes
  | cons c s ih =>
    rw [List.flatMap_cons, List.append_assoc, unquote?_escapeChar h, ih, Option.map_some]

theorem toList_quote (d : Dialect) (s : String) :
    (d.quote s).toList = d.delimiter :: (s.toList.flatMap d.escapeChar ++ [d.delimiter]) := by
  simp [quote]

/-- Where a dialect has an escape for the newline, a literal stays on one line. -/
theorem newline_notMem_quote (h : d.Sound) (escapes : d.escapesNewline = true) (s : String) :
    '\n' ∉ (d.quote s).toList := by
  cases h with
  | doubled _ newline => simp [newline] at escapes
  | backslash doubled newline delimiter noBackslash noLetter noNewline =>
    have char : ∀ c, '\n' ∉ d.escapeChar c := by
      intro c
      unfold escapeChar
      split_ifs with isBackslash isDelimiter isNewline
      · decide
      · simp [delimiter, Ne.symm noNewline]
      · decide
      · have other : c ≠ '\n' := fun eq => isNewline ⟨eq, newline⟩
        simpa using Ne.symm other
    simp [toList_quote, Ne.symm noNewline, char]

end RequestWriter.Dialect

namespace RequestWriter.Target

theorem sound (t : Target) : t.dialect.Sound := by
  cases t with
  | powershell => exact .doubled rfl rfl rfl
  | _ => exact .backslash rfl rfl rfl (by decide) (by decide) (by decide)

end RequestWriter.Target
