import RequestWriter.Literal.Dialect

/-!
# Strings as a language reads them

A language has its own rule for the strings of a source, and the rule need not be the one by which
they were written. A rule names the marks that open and close a string, and the pairs of characters
inside of one that stand for a single character. Every other character stands for itself. The
reader gives the texts of all strings in order and skips the code between them.
-/

namespace RequestWriter

/-- How a language reads strings. -/
structure Quotation where
  /-- The marks that open a string and close one. -/
  isMark : Char → Bool
  /-- What two characters inside a string stand for, if they belong together. -/
  pair? : Char → Char → Option Char

namespace Quotation

/-- The texts of the strings of a source, unless it ends inside of one. The first argument is what
has been read of a string that is still open. -/
def strings? (q : Quotation) : Option (List Char) → List Char → Option (List String)
  | none, [] => some []
  | none, c :: rest => if q.isMark c then strings? q (some []) rest else strings? q none rest
  | some _, [] => none
  | some read, [a] => if q.isMark a then some [String.ofList read] else none
  | some read, a :: b :: rest =>
    match q.pair? a b with
    | some c => strings? q (some (read ++ [c])) rest
    | none =>
      if q.isMark a then (strings? q none (b :: rest)).map (String.ofList read :: ·)
      else strings? q (some (read ++ [a])) (b :: rest)

/-- The texts of the strings of a whole source. -/
def ofSource? (q : Quotation) (source : String) : Option (List String) :=
  q.strings? none source.toList

/-- A text without marks. -/
def IsCode (q : Quotation) (cs : List Char) : Prop := ∀ c ∈ cs, q.isMark c = false

instance (q : Quotation) (cs : List Char) : Decidable (q.IsCode cs) := List.decidableBAll _ cs

/-- A character and the text behind it do not begin with a pair. -/
def Alone (q : Quotation) (a : Char) (cs : List Char) : Prop :=
  ∀ b, cs.head? = some b → q.pair? a b = none

/-- The ways in which the reader gets through a source, one character or pair at a time. -/
inductive Finds (q : Quotation) : Option (List Char) → List Char → List String → Prop
  | done : Finds q none [] []
  | code {c : Char} {cs : List Char} {ws : List String} (plain : q.isMark c = false)
      (more : Finds q none cs ws) : Finds q none (c :: cs) ws
  | opening {c : Char} {cs : List Char} {ws : List String} (mark : q.isMark c = true)
      (more : Finds q (some []) cs ws) : Finds q none (c :: cs) ws
  | pair {a b c : Char} {read cs : List Char} {ws : List String} (pair : q.pair? a b = some c)
      (more : Finds q (some (read ++ [c])) cs ws) : Finds q (some read) (a :: b :: cs) ws
  | char {a : Char} {read cs : List Char} {ws : List String} (plain : q.isMark a = false)
      (more : Finds q (some (read ++ [a])) cs ws) : Finds q (some read) (a :: cs) ws
  | closing {a : Char} {read cs : List Char} {ws : List String} (mark : q.isMark a = true)
      (more : Finds q none cs ws) : Finds q (some read) (a :: cs) (String.ofList read :: ws)

variable {q : Quotation} {a : Char} {read cs rest : List Char} {ws : List String}

theorem finds_of_strings? {inside : Option (List Char)} (h : q.strings? inside cs = some ws) :
    Finds q inside cs ws := by
  induction inside, cs using strings?.induct q generalizing ws with
  | case1 =>
    cases h
    exact .done
  | case2 c cs mark ih =>
    rw [strings?, if_pos mark] at h
    exact .opening mark (ih h)
  | case3 c cs plain ih =>
    rw [strings?, if_neg plain] at h
    exact .code (by simpa using plain) (ih h)
  | case4 => cases h
  | case5 read a mark =>
    rw [strings?, if_pos mark] at h
    cases h
    exact .closing mark .done
  | case6 read a plain =>
    rw [strings?, if_neg plain] at h
    cases h
  | case7 read a b cs c pair ih =>
    rw [strings?, pair] at h
    exact .pair pair (ih h)
  | case8 read a b cs alone mark ih =>
    simp only [strings?, alone, if_pos mark, Option.map_eq_some_iff] at h
    obtain ⟨others, found, rfl⟩ := h
    exact .closing mark (ih found)
  | case9 read a b cs alone plain ih =>
    simp only [strings?, alone, if_neg plain] at h
    exact .char (by simpa using plain) (ih h)

theorem strings?_mark (mark : q.isMark a = true) (cs : List Char) :
    q.strings? none (a :: cs) = q.strings? (some []) cs := by
  rw [strings?, if_pos mark]

/-- Code without marks is skipped. -/
theorem strings?_code (code : q.IsCode cs) (rest : List Char) :
    q.strings? none (cs ++ rest) = q.strings? none rest := by
  induction cs with
  | nil => rfl
  | cons c cs ih =>
    obtain ⟨first, others⟩ := List.forall_mem_cons.mp code
    rw [List.cons_append, strings?, if_neg (by simp [first]), ih others]

theorem strings?_pair {b c : Char} (pair : q.pair? a b = some c) (read cs : List Char) :
    q.strings? (some read) (a :: b :: cs) = q.strings? (some (read ++ [c])) cs := by
  rw [strings?, pair]

theorem strings?_plain (plain : q.isMark a = false) (alone : q.Alone a cs) (read : List Char) :
    q.strings? (some read) (a :: cs) = q.strings? (some (read ++ [a])) cs := by
  cases cs with
  | nil => simp [strings?, plain]
  | cons b cs => simp [strings?, plain, alone b rfl]

theorem strings?_close (mark : q.isMark a = true) (alone : q.Alone a cs) (read : List Char) :
    q.strings? (some read) (a :: cs) =
      (q.strings? none cs).map (String.ofList read :: ·) := by
  cases cs with
  | nil => simp [strings?, mark]
  | cons b cs => simp [strings?, mark, alone b rfl]

end Quotation

end RequestWriter
