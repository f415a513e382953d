import RequestWriter.Text.Basic
import Mathlib.Data.List.Basic

/-!
# Searching a text

Where a text is cut and what is replaced in it. A text without what is looked for stays whole.
-/

namespace RequestWriter.Text

variable {sep : Char} {cs : List Char}

theorem split_of_notMem (h : sep ∉ cs) : split sep cs = [cs] := by
  induction cs with
  | nil => rfl
  | cons c cs ih =>
    obtain ⟨other, others⟩ := not_or.mp (mt List.mem_cons.mpr h)
    rw [split, if_neg (Ne.symm other), ih others]

/-- The first part goes up to the first separator. -/
theorem split_eq_cons (sep : Char) (cs : List Char) :
    ∃ parts, split sep cs = cs.takeWhile (· != sep) :: parts := by
  induction cs with
  | nil => exact ⟨[], rfl⟩
  | cons c cs ih =>
    obtain ⟨parts, eq⟩ := ih
    by_cases here : c = sep
    · exact ⟨split sep cs, by simp [split, here]⟩
    · exact ⟨parts, by simp [split, here, eq]⟩

/-- The parts on the two sides of a separator. -/
theorem split_append (sep : Char) (cs ds : List Char) :
    split sep (cs ++ sep :: ds) = split sep cs ++ split sep ds := by
  induction cs with
  | nil => simp [split]
  | cons c cs ih =>
    rw [List.cons_append, split, split, ih]
    split
    · rfl
    · obtain ⟨parts, eq⟩ := split_eq_cons sep cs
      rw [eq]
      rfl

theorem cut?_of_notMem (h : sep ∉ cs) : cut? sep cs = none := by
  cases found : cut? sep cs with
  | none => rfl
  | some parts => exact absurd (cut?_eq_some found) (by rintro rfl; simp at h)

theorem cut?_append {before : List Char} (h : sep ∉ before) (after : List Char) :
    cut? sep (before ++ sep :: after) = some (before, after) := by
  induction before with
  | nil => simp [cut?]
  | cons c before ih =>
    obtain ⟨other, others⟩ := not_or.mp (mt List.mem_cons.mpr h)
    rw [List.cons_append, cut?, if_neg (Ne.symm other), ih others]
    rfl

/-- A text is cut at the first of its separators. -/
theorem cut?_of_mem (h : sep ∈ cs) :
    cut? sep cs = some (cs.takeWhile (· != sep), (cs.dropWhile (· != sep)).tail) := by
  induction cs with
  | nil => cases h
  | cons c cs ih =>
    by_cases here : c = sep
    · simp [cut?, here]
    · have later : sep ∈ cs := (List.mem_cons.mp h).resolve_left (Ne.symm here)
      simp [cut?, here, ih later]

theorem replaceFrom_singleton (c : Char) (new cs : List Char) :
    replaceFrom [c] new 0 cs = cs.flatMap fun x => if x = c then new else [x] := by
  induction cs with
  | nil => rfl
  | cons x cs ih =>
    rw [replaceFrom, List.flatMap_cons]
    by_cases found : x = c
    · simp [found, ih]
    · simp [found, Ne.symm found, ih]

/-- Replacing a single character is a rule for each character. -/
theorem toList_replace (c : Char) (new s : String) :
    (replace (String.singleton c) new s).toList =
      s.toList.flatMap fun x => if x = c then new.toList else [x] := by
  simp [replace, replaceFrom_singleton]

/-- Where the first character of a pattern is not found, nothing is replaced. -/
theorem replaceFrom_of_notMem {c : Char} (h : c ∉ cs) (pattern new : List Char) :
    replaceFrom (c :: pattern) new 0 cs = cs := by
  induction cs with
  | nil => rfl
  | cons x cs ih =>
    obtain ⟨other, others⟩ := not_or.mp (mt List.mem_cons.mpr h)
    rw [replaceFrom, if_neg (by simp [other]), ih others]

theorem replaceFrom_skip (pattern new : List Char) (skip : Nat) (cs : List Char) :
    replaceFrom pattern new skip cs = replaceFrom pattern new 0 (cs.drop skip) := by
  induction cs generalizing skip with
  | nil => simp [replaceFrom]
  | cons c cs ih =>
    cases skip with
    | zero => rfl
    | succ n => rw [replaceFrom, ih, List.drop_succ_cons]

/-- An occurrence at the front is replaced, and the search goes on behind it. -/
theorem replaceFrom_found (c : Char) (pattern new cs : List Char) :
    replaceFrom (c :: pattern) new 0 (c :: (pattern ++ cs)) =
      new ++ replaceFrom (c :: pattern) new 0 cs := by
  have found : (c :: pattern).isPrefixOf (c :: (pattern ++ cs)) = true :=
    List.isPrefixOf_iff_prefix.mpr (List.prefix_append (c :: pattern) cs)
  rw [replaceFrom, if_pos found, replaceFrom_skip, List.length_cons, Nat.add_sub_cancel,
    List.drop_left]

/-- A front in which the pattern cannot begin stays as it is. -/
theorem replaceFrom_front {c : Char} {front : List Char} (h : c ∉ front)
    (pattern new cs : List Char) :
    replaceFrom (c :: pattern) new 0 (front ++ cs) =
      front ++ replaceFrom (c :: pattern) new 0 cs := by
  induction front with
  | nil => rfl
  | cons x front ih =>
    obtain ⟨other, others⟩ := not_or.mp (mt List.mem_cons.mpr h)
    rw [List.cons_append, replaceFrom, if_neg (by simp [other]), ih others, List.cons_append]

/-- Nor does it occur there. -/
theorem infix_front {c : Char} {front : List Char} (h : c ∉ front) (pattern cs : List Char) :
    c :: pattern <:+: front ++ cs ↔ c :: pattern <:+: cs := by
  induction front with
  | nil => rfl
  | cons x front ih =>
    obtain ⟨other, others⟩ := not_or.mp (mt List.mem_cons.mpr h)
    rw [List.cons_append, List.infix_cons_iff, ih others]
    exact or_iff_right fun front => other (List.cons_prefix_cons.mp front).1

theorem occurs_iff {pattern text : List Char} : occurs pattern text = true ↔ pattern <:+: text := by
  induction text with
  | nil => simp [occurs]
  | cons c rest ih => simp [occurs, List.infix_cons_iff, ih, List.isPrefixOf_iff_prefix]

end RequestWriter.Text
