import RequestWriter.Text.Basic
import Mathlib.Tactic.SplitIfs

/-!
# Words of a command line

How a POSIX shell splits a command line into words, as far as quoting goes: blanks and newlines
separate words, a text between single quotes stands for itself, and a backslash takes the meaning
from the character behind it, between double quotes only if that character has one there. Nothing
is expanded and there are no comments.

`split?` is the splitter, one character at a time. `Spells` says how the characters of a single
word become its text, and the two are tied together in both directions: a word that is spelled is
split off, and whatever is split off was spelled. A spelling can only lose characters: quotes,
backslashes and newlines, and at least one for each quote that has to be closed.
-/

namespace RequestWriter.Shell

/-- Where a character of a command line stands. -/
inductive Quoting where
  | bare
  /-- Between single quotes. -/
  | single
  /-- Between double quotes. -/
  | double
  /-- Behind a backslash, between double quotes or not. -/
  | escaped (quoted : Bool)
  deriving DecidableEq, Repr

/-- The place to which a character behind a backslash leads back. -/
def Quoting.behind (quoted : Bool) : Quoting := if quoted then .double else .bare

/-- Whether a character separates words. -/
def separates (c : Char) : Bool := c == ' ' || c == '\t' || c == '\n'

/-- Whether a backslash between double quotes takes the meaning from a character. -/
def hasMeaning (c : Char) : Bool := ['$', '\x60', '"', '\\', '\n'].contains c

/-- Whether a character outside of quotes stands for itself inside a word. -/
def isBare (c : Char) : Bool := !separates c && !(['\'', '"', '\\'].contains c)

/-- The word that a separator ends, if one has begun. -/
def ended (word : Option (List Char)) : List String := (word.map String.ofList).toList

/-- Splits a command line from a place on, unless it ends inside quotes or behind a backslash. The
second argument is what has been read of a word that has begun. -/
def split? : Quoting → Option (List Char) → List Char → Option (List String)
  | .bare, word, [] => some (ended word)
  | _, _, [] => none
  | .bare, word, c :: rest =>
    if separates c then (split? .bare none rest).map (ended word ++ ·)
    else if c = '\'' then split? .single (some (word.getD [])) rest
    else if c = '"' then split? .double (some (word.getD [])) rest
    else if c = '\\' then split? (.escaped false) word rest
    else split? .bare (some (word.getD [] ++ [c])) rest
  | .single, word, c :: rest =>
    if c = '\'' then split? .bare word rest
    else split? .single (some (word.getD [] ++ [c])) rest
  | .double, word, c :: rest =>
    if c = '"' then split? .bare word rest
    else if c = '\\' then split? (.escaped true) word rest
    else split? .double (some (word.getD [] ++ [c])) rest
  | .escaped quoted, word, c :: rest =>
    if c = '\n' then split? (.behind quoted) word rest
    else if quoted && !hasMeaning c then
      split? (.behind quoted) (some (word.getD [] ++ ['\\', c])) rest
    else split? (.behind quoted) (some (word.getD [] ++ [c])) rest

/-- The words of a command line. -/
def words? (line : String) : Option (List String) := split? .bare none line.toList

/-- The characters spell the text to the end of a word, from a place inside the word on. -/
inductive Spells : Quoting → List Char → List Char → Prop
  | done : Spells .bare [] []
  | bare {c : Char} {cs s : List Char} (plain : isBare c = true) (more : Spells .bare cs s) :
      Spells .bare (c :: cs) (c :: s)
  | openSingle {cs s : List Char} (more : Spells .single cs s) : Spells .bare ('\'' :: cs) s
  | openDouble {cs s : List Char} (more : Spells .double cs s) : Spells .bare ('"' :: cs) s
  | single {c : Char} {cs s : List Char} (plain : c ≠ '\'') (more : Spells .single cs s) :
      Spells .single (c :: cs) (c :: s)
  | closeSingle {cs s : List Char} (more : Spells .bare cs s) : Spells .single ('\'' :: cs) s
  | double {c : Char} {cs s : List Char} (noQuote : c ≠ '"') (noBackslash : c ≠ '\\')
      (more : Spells .double cs s) : Spells .double (c :: cs) (c :: s)
  | closeDouble {cs s : List Char} (more : Spells .bare cs s) : Spells .double ('"' :: cs) s
  | escapeBare {cs s : List Char} (more : Spells (.escaped false) cs s) :
      Spells .bare ('\\' :: cs) s
  | escapeDouble {cs s : List Char} (more : Spells (.escaped true) cs s) :
      Spells .double ('\\' :: cs) s
  | continued {quoted : Bool} {cs s : List Char} (more : Spells (.behind quoted) cs s) :
      Spells (.escaped quoted) ('\n' :: cs) s
  | kept {c : Char} {cs s : List Char} (plain : hasMeaning c = false)
      (more : Spells .double cs s) : Spells (.escaped true) (c :: cs) ('\\' :: c :: s)
  | taken {quoted : Bool} {c : Char} {cs s : List Char} (noNewline : c ≠ '\n')
      (meaning : quoted = true → hasMeaning c = true) (more : Spells (.behind quoted) cs s) :
      Spells (.escaped quoted) (c :: cs) (c :: s)

/-- What may follow a word: nothing, or a separator. -/
def Stops (rest : List Char) : Prop := ∀ c, rest.head? = some c → separates c = true

variable {q : Quoting} {cs s rest read : List Char} {ws : List String}

theorem isBare_iff {c : Char} :
    isBare c = true ↔ separates c = false ∧ c ≠ '\'' ∧ c ≠ '"' ∧ c ≠ '\\' := by
  simp [isBare]

theorem stops_nil : Stops [] := by
  intro c h
  cases h

theorem stops_cons {c : Char} (h : separates c = true) (rest : List Char) : Stops (c :: rest) := by
  rintro d ⟨⟩
  exact h

/-- A word that has begun ends where the text does or at a separator. -/
theorem split?_stops (stop : Stops rest) (read : List Char) :
    split? .bare (some read) rest = (split? .bare none rest).map (String.ofList read :: ·) := by
  cases rest with
  | nil => rfl
  | cons c rest =>
    have separator := stop c rfl
    simp [split?, separator, ended]

/-- A word that is spelled is split off. -/
theorem split?_of_spells (h : Spells q cs s) (stop : Stops rest) (read : List Char) :
    split? q (some read) (cs ++ rest) =
      (split? .bare none rest).map (String.ofList (read ++ s) :: ·) := by
  induction h generalizing read with
  | done => simpa using split?_stops stop read
  | bare plain _ ih =>
    obtain ⟨separator, single, double, backslash⟩ := isBare_iff.mp plain
    simp [split?, separator, single, double, backslash, ih]
  | openSingle _ ih => simp [split?, separates, ih]
  | openDouble _ ih => simp [split?, separates, ih]
  | single plain _ ih => simp [split?, plain, ih]
  | closeSingle _ ih => simp [split?, ih]
  | double noQuote noBackslash _ ih => simp [split?, noQuote, noBackslash, ih]
  | closeDouble _ ih => simp [split?, ih]
  | escapeBare _ ih => simp [split?, separates, ih]
  | escapeDouble _ ih => simp [split?, ih]
  | continued _ ih => simp [split?, ih]
  | @kept c cs s plain _ ih =>
    have noNewline : c ≠ '\n' := by
      rintro rfl
      cases plain
    have back : Quoting.behind true = .double := rfl
    simp [split?, noNewline, plain, back, ih]
  | @taken quoted c cs s noNewline meaning _ ih =>
    have loses : (quoted && !hasMeaning c) = false := by
      cases quoted with
      | false => rfl
      | true => simp [meaning rfl]
    simp [split?, noNewline, loses, ih]

/-- What a splitter that stands inside a word has found when it gives these words. -/
def Found (q : Quoting) (read cs : List Char) (ws : List String) : Prop :=
  ∃ front rest s others, cs = front ++ rest ∧ Spells q front s ∧ Stops rest ∧
    ws = String.ofList (read ++ s) :: others ∧ split? .bare none rest = some others

/-- One more character in front of what was found. -/
theorem Found.cons {q' : Quoting} {c : Char} (text : List Char) (h : Found q' (read ++ text) cs ws)
    (step : ∀ {front s}, Spells q' front s → Spells q (c :: front) (text ++ s)) :
    Found q read (c :: cs) ws := by
  obtain ⟨front, rest, s, others, rfl, spelled, stop, rfl, split⟩ := h
  exact ⟨c :: front, rest, text ++ s, others, rfl, step spelled, stop, by simp, split⟩

/-- Whatever is split off a line inside a word was spelled. -/
theorem found_of_split? (h : split? q (some read) cs = some ws) : Found q read cs ws := by
  induction cs generalizing q read with
  | nil =>
    cases q with
    | bare =>
      cases h
      exact ⟨[], [], [], [], rfl, .done, stops_nil, by simp [ended], rfl⟩
    | _ => cases h
  | cons c cs ih =>
    have silent : ∀ {q}, split? q (some read) cs = some ws → Found q (read ++ []) cs ws := by
      intro q h
      rw [List.append_nil]
      exact ih h
    cases q with
    | bare =>
      rw [split?] at h
      split_ifs at h with separator single double backslash
      · obtain ⟨others, split, rfl⟩ := Option.map_eq_some_iff.mp h
        refine ⟨[], c :: cs, [], others, rfl, .done, stops_cons separator cs, ?_, ?_⟩
        · simp [ended]
        · simp [split?, separator, split, ended]
      · subst single
        exact (silent h).cons [] .openSingle
      · subst double
        exact (silent h).cons [] .openDouble
      · subst backslash
        exact (silent h).cons [] .escapeBare
      · have plain : isBare c = true :=
          isBare_iff.mpr ⟨by simpa using separator, single, double, backslash⟩
        exact (ih h).cons [c] (.bare plain)
    | single =>
      rw [split?] at h
      split_ifs at h with quote
      · subst quote
        exact (silent h).cons [] .closeSingle
      · exact (ih h).cons [c] (.single quote)
    | double =>
      rw [split?] at h
      split_ifs at h with quote backslash
      · subst quote
        exact (silent h).cons [] .closeDouble
      · subst backslash
        exact (silent h).cons [] .escapeDouble
      · exact (ih h).cons [c] (.double quote backslash)
    | escaped quoted =>
      rw [split?] at h
      split_ifs at h with newline loses
      · subst newline
        exact (silent h).cons [] .continued
      · simp only [Bool.and_eq_true, Bool.not_eq_true'] at loses
        obtain ⟨rfl, plain⟩ := loses
        exact (ih h).cons ['\\', c] (.kept plain)
      · refine (ih h).cons [c] (.taken newline ?_)
        rintro rfl
        simpa using loses

/-- How many characters a word loses at least: one for the quote that has to be closed. -/
def Quoting.cost : Quoting → Nat
  | .single | .double => 1
  | _ => 0

/-- Quotes and backslashes get lost, and nothing is added. -/
theorem Spells.length_le (h : Spells q cs s) : s.length + q.cost ≤ cs.length := by
  induction h with
  | done => exact Nat.le_refl _
  | @continued quoted | @taken quoted =>
    cases quoted
    all_goals
      simp only [Quoting.behind, Quoting.cost, List.length_cons] at *
      grind
  | _ =>
    simp only [Quoting.cost, List.length_cons] at *
    omega

/-- No blank gets lost. -/
theorem Spells.count_blank (h : Spells q cs s) : s.count ' ' = cs.count ' ' := by
  induction h with
  | done => rfl
  | bare _ _ ih | single _ _ ih | double _ _ _ ih | taken _ _ _ ih => simp [List.count_cons, ih]
  | kept _ _ ih => simp [List.count_cons, ih]
  | _ => simpa using ‹_›

end RequestWriter.Shell
