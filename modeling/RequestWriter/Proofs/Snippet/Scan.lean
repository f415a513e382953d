import RequestWriter.Proofs.Literal.Quoted
import RequestWriter.Text.Basic

/-!
# Code and string literals of a source

A source is split from the left into string literals and the code between them, with no knowledge of
how it was put together: outside of a literal only the delimiter matters, inside of one the escape
sequences and the delimiter do.

Two sources are twins when their code is the same and only the texts of their literals differ.
Sources that are put together in the same way from twins are twins, so a writer is gone through
once, with a pair of runs in mind, and both its literals and the independence of its code from the
texts come out.
-/

namespace RequestWriter

/-- A piece of a source: a character of code, or a string literal by the text that it stands for. -/
inductive Piece where
  | code (c : Char)
  | literal (text : String)
  deriving DecidableEq, Repr

namespace Piece

/-- Splits a source into its pieces, unless it ends inside a literal. The first argument is what has
been read of a literal that is still open. -/
def split? (d : Dialect) : Option (List Char) → List Char → Option (List Piece)
  | none, [] => some []
  | none, c :: rest =>
    if c = d.delimiter then split? d (some []) rest
    else (split? d none rest).map (.code c :: ·)
  | some _, [] => none
  | some read, [a] => if a = d.delimiter then some [.literal (String.ofList read)] else none
  | some read, a :: b :: rest =>
    match d.unescape? a b with
    | some c => split? d (some (read ++ [c])) rest
    | none =>
      if a = d.delimiter then
        (split? d none (b :: rest)).map (.literal (String.ofList read) :: ·)
      else split? d (some (read ++ [a])) (b :: rest)

/-- The pieces of a source. -/
def ofSource? (d : Dialect) (source : String) : Option (List Piece) :=
  split? d none source.toList

/-- The text of a literal. -/
def text? : Piece → Option String
  | .code _ => none
  | .literal text => some text

/-- The character of a piece of code. -/
def char? : Piece → Option Char
  | .code c => some c
  | .literal _ => none

/-- The texts of the literals, in order. -/
def texts (pieces : List Piece) : List String := pieces.filterMap text?

/-- The code between the literals, with a hole for each literal. -/
def frame (pieces : List Piece) : List (Option Char) := pieces.map char?

@[simp] theorem texts_nil : texts [] = [] := rfl

@[simp] theorem frame_nil : frame [] = [] := rfl

@[simp] theorem texts_append (ps qs : List Piece) : texts (ps ++ qs) = texts ps ++ texts qs :=
  List.filterMap_append

@[simp] theorem frame_append (ps qs : List Piece) : frame (ps ++ qs) = frame ps ++ frame qs :=
  List.map_append

@[simp] theorem texts_code (cs : List Char) : texts (cs.map code) = [] := by
  induction cs with
  | nil => rfl
  | cons c cs ih => simp [texts, text?]

/-- An open literal goes on to the delimiter at which the reader of literals ends it. -/
theorem split?_of_unquotes {d : Dialect} {cs s rest : List Char} (h : d.Unquotes cs s rest)
    (read : List Char) :
    split? d (some read) cs =
      (split? d none rest).map (.literal (String.ofList (read ++ s)) :: ·) := by
  induction h generalizing read with
  | last => simp [split?]
  | close plain => simp [split?, plain]
  | escape escape _ ih =>
    rw [split?]
    simp [escape, ih]
  | char plain other _ ih =>
    rw [split?]
    simp [plain, other, ih]

/-- The text gives these pieces, whatever follows it. -/
def Scans (d : Dialect) (source : String) (pieces : List Piece) : Prop :=
  ∀ rest, split? d none (source.toList ++ rest) = (split? d none rest).map (pieces ++ ·)

/-- Two texts with the same code and with these texts in their literals. -/
def Twin (d : Dialect) (s t : String) (a b : List String) : Prop :=
  ∃ ps qs, Scans d s ps ∧ Scans d t qs ∧ texts ps = a ∧ texts qs = b ∧ frame ps = frame qs

/-- Two lists of lines that are twins one by one. -/
inductive Twins (d : Dialect) : List String → List String → List String → List String → Prop
  | nil : Twins d [] [] [] []
  | cons {s t : String} {ss ts a b as bs : List String} (first : Twin d s t a b)
      (rest : Twins d ss ts as bs) : Twins d (s :: ss) (t :: ts) (a ++ as) (b ++ bs)

variable {d : Dialect} {s s' t t' : String} {ss ss' ts ts' a a' b b' : List String}

theorem Scans.append {ps qs : List Piece} (hs : Scans d s ps) (ht : Scans d t qs) :
    Scans d (s ++ t) (ps ++ qs) := by
  intro rest
  rw [String.toList_append, List.append_assoc, hs, ht, Option.map_map]
  simp [Function.comp_def]

theorem scans_code (h : d.delimiter ∉ s.toList) : Scans d s (s.toList.map code) := by
  intro rest
  generalize s.toList = cs at h
  induction cs with
  | nil => simp
  | cons c cs ih =>
    obtain ⟨other, later⟩ := not_or.mp (mt List.mem_cons.mpr h)
    simp [split?, Ne.symm other, ih later, Function.comp_def]

theorem scans_quote (sound : d.Sound) (doubled : d.escapesBackslash = true) (s : String) :
    Scans d (d.quote s) [literal s] := by
  intro rest
  have closes : d.Closes rest := by simp [Dialect.Closes, doubled]
  have body := split?_of_unquotes
    (Dialect.unquotes_of_unquote? (Dialect.unquote?_escaped sound s.toList closes)) []
  rw [Dialect.toList_quote]
  simp [split?, body]

namespace Twin

theorem code (h : d.delimiter ∉ s.toList) : Twin d s s [] [] :=
  ⟨_, _, scans_code h, scans_code h, texts_code _, texts_code _, rfl⟩

theorem quote (sound : d.Sound) (doubled : d.escapesBackslash = true) (s t : String) :
    Twin d (d.quote s) (d.quote t) [s] [t] :=
  ⟨_, _, scans_quote sound doubled s, scans_quote sound doubled t, rfl, rfl, rfl⟩

theorem congr (h : Twin d s t a b) (ha : a = a') (hb : b = b') : Twin d s t a' b' := ha ▸ hb ▸ h

theorem append (h : Twin d s t a b) (h' : Twin d s' t' a' b') :
    Twin d (s ++ s') (t ++ t') (a ++ a') (b ++ b') := by
  obtain ⟨ps, qs, hs, ht, rfl, rfl, same⟩ := h
  obtain ⟨ps', qs', hs', ht', rfl, rfl, same'⟩ := h'
  exact ⟨ps ++ ps', qs ++ qs', hs.append hs', ht.append ht', by simp, by simp,
    by simp [same, same']⟩

end Twin

namespace Twins

theorem append (h : Twins d ss ts a b) (h' : Twins d ss' ts' a' b') :
    Twins d (ss ++ ss') (ts ++ ts') (a ++ a') (b ++ b') := by
  induction h with
  | nil => exact h'
  | cons first _ ih =>
    rw [List.append_assoc, List.append_assoc]
    exact .cons first ih

theorem singleton (h : Twin d s t a b) : Twins d [s] [t] a b := by
  have lines := Twins.cons h .nil
  rwa [List.append_nil, List.append_nil] at lines

/-- Lines without a literal are their own twins. -/
theorem code (h : ∀ s ∈ ss, d.delimiter ∉ s.toList) : Twins d ss ss [] [] := by
  induction ss with
  | nil => exact .nil
  | cons s ss ih =>
    exact .cons (.code (h s List.mem_cons_self)) (ih fun s hs => h s (List.mem_cons_of_mem _ hs))

/-- One line for each of several things that look the same on both sides. -/
theorem map {α β : Type} {look : α → β} {xs ys : List α} {line : α → String}
    {text : α → List String} (same : xs.map look = ys.map look)
    (h : ∀ x ∈ xs, ∀ y ∈ ys, look x = look y → Twin d (line x) (line y) (text x) (text y)) :
    Twins d (xs.map line) (ys.map line) (xs.flatMap text) (ys.flatMap text) := by
  induction xs generalizing ys with
  | nil =>
    obtain rfl := List.map_eq_nil_iff.mp same.symm
    exact .nil
  | cons x xs ih =>
    obtain ⟨y, ys, rfl⟩ := List.exists_cons_of_ne_nil (l := ys) (by rintro rfl; simp at same)
    obtain ⟨first, others⟩ := List.cons.inj same
    exact .cons (h x List.mem_cons_self y List.mem_cons_self first)
      (ih others fun x hx y hy => h x (List.mem_cons_of_mem _ hx) y (List.mem_cons_of_mem _ hy))

/-- Lines with code between them are twins as one text. -/
theorem join (sep : String) (noDelimiter : d.delimiter ∉ sep.toList) (h : Twins d ss ts a b) :
    Twin d (Text.join sep ss) (Text.join sep ts) a b := by
  induction h with
  | nil => exact .code (by simp)
  | @cons s t ss ts a b as bs first rest ih =>
    cases rest with
    | nil => simpa using first
    | cons next rest =>
      rw [Text.join_cons_cons, Text.join_cons_cons]
      have line := first.append (Twin.code noDelimiter)
      simpa using line.append ih

end Twins

end Piece

end RequestWriter
