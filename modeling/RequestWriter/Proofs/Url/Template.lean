import RequestWriter.Url
import RequestWriter.Proofs.Text.Search

/-!
# Templates in pieces

A template is a row of characters and of groups in braces. Where the groups are told apart, to
replace the text of a group is to replace the pieces that are this group, and what comes in without
braces makes no new group. So a chain of replacements in the text is one substitution in the pieces.
-/

namespace RequestWriter.Url

/-- A piece of a template: a character, or a name in braces. -/
inductive Piece where
  | char (c : Char)
  | group (name : String)
  deriving DecidableEq, Repr

/-- The text of a piece. -/
def Piece.chars : Piece → List Char
  | .char c => [c]
  | .group name => (Url.group name).toList

/-- The name of a piece that is a group. -/
def Piece.name? : Piece → Option String
  | .char _ => none
  | .group name => some name

/-- The text of several pieces. -/
def written (pieces : List Piece) : List Char := pieces.flatMap Piece.chars

/-- Leaves out the next `skip` characters and takes the text apart: an opening brace and the next
closing brace make a group. -/
def piecesFrom (skip : Nat) : List Char → List Piece
  | [] => []
  | c :: rest =>
    match skip with
    | n + 1 => piecesFrom n rest
    | 0 =>
      match if c = '\x7b' then Text.cut? '\x7d' rest else none with
      | some (name, _) => .group (String.ofList name) :: piecesFrom (name.length + 1) rest
      | none => .char c :: piecesFrom 0 rest

/-- The pieces of a text. -/
def pieces (text : String) : List Piece := piecesFrom 0 text.toList

/-- The names of the groups among pieces, in their order. -/
def names (pieces : List Piece) : List String := pieces.filterMap Piece.name?

/-- The names of the groups of a text, in their order. -/
def groups (text : String) : List String := names (pieces text)

/-- Puts texts in the place of groups, all at once. -/
def fill (text? : String → Option String) (pieces : List Piece) : List Piece :=
  pieces.flatMap fun
    | .char c => [.char c]
    | .group name =>
      match text? name with
      | some s => s.toList.map .char
      | none => [.group name]

/-- The template with texts in the place of its groups. -/
def fillGroups (text? : String → Option String) (template : String) : String :=
  String.ofList (written (fill text? (pieces template)))

/-- No opening brace stands between an opening brace and the next closing one. -/
def IsFlat : List Char → Prop
  | [] => True
  | c :: rest =>
    (c = '\x7b' → '\x7d' ∈ rest → '\x7b' ∉ rest.takeWhile (· != '\x7d')) ∧ IsFlat rest

instance decidableIsFlat : (text : List Char) → Decidable (IsFlat text)
  | [] => isTrue trivial
  | _ :: rest =>
    have := decidableIsFlat rest
    inferInstanceAs (Decidable (_ ∧ _))

/-- The text has no braces. -/
def IsPlain (text : String) : Prop := '\x7b' ∉ text.toList ∧ '\x7d' ∉ text.toList

instance (text : String) : Decidable (IsPlain text) := inferInstanceAs (Decidable (_ ∧ _))

/-- The pieces can be told apart in their text: the names of groups have no braces, and behind an
opening brace that belongs to no group comes no closing one. -/
inductive Apart : List Piece → Prop
  | nil : Apart []
  | char {c : Char} {rest : List Piece} (open_ : c = '\x7b' → '\x7d' ∉ written rest)
      (behind : Apart rest) : Apart (.char c :: rest)
  | group {name : String} {rest : List Piece} (plain : IsPlain name) (behind : Apart rest) :
      Apart (.group name :: rest)

variable {name : String} {cs rest : List Char} {ps : List Piece}

section Reading

@[simp] theorem toList_group (name : String) :
    (group name).toList = '\x7b' :: (name.toList ++ ['\x7d']) := by
  simp [group]

@[simp] theorem written_nil : written [] = [] := rfl

@[simp] theorem written_char (c : Char) (ps : List Piece) :
    written (.char c :: ps) = c :: written ps := rfl

@[simp] theorem written_group (name : String) (ps : List Piece) :
    written (.group name :: ps) = '\x7b' :: (name.toList ++ '\x7d' :: written ps) := by
  simp [written, Piece.chars]

@[simp] theorem written_append (ps qs : List Piece) :
    written (ps ++ qs) = written ps ++ written qs :=
  List.flatMap_append

@[simp] theorem written_chars (cs : List Char) : written (cs.map .char) = cs := by
  induction cs with
  | nil => rfl
  | cons c cs ih => rw [List.map_cons, written_char, ih]

@[simp] theorem names_nil : names [] = [] := rfl

@[simp] theorem names_char (c : Char) (ps : List Piece) : names (.char c :: ps) = names ps := rfl

@[simp] theorem names_group (name : String) (ps : List Piece) :
    names (.group name :: ps) = name :: names ps := rfl

@[simp] theorem names_append (ps qs : List Piece) : names (ps ++ qs) = names ps ++ names qs :=
  List.filterMap_append

@[simp] theorem names_chars (cs : List Char) : names (cs.map .char) = [] := by
  induction cs with
  | nil => rfl
  | cons c cs ih => rw [List.map_cons, names_char, ih]

theorem piecesFrom_skip (skip : Nat) (cs : List Char) :
    piecesFrom skip cs = piecesFrom 0 (cs.drop skip) := by
  induction cs generalizing skip with
  | nil => simp [piecesFrom]
  | cons c cs ih =>
    cases skip with
    | zero => rfl
    | succ n => rw [piecesFrom, ih, List.drop_succ_cons]

theorem piecesFrom_char {c : Char} (h : c = '\x7b' → '\x7d' ∉ rest) :
    piecesFrom 0 (c :: rest) = .char c :: piecesFrom 0 rest := by
  rw [piecesFrom]
  split
  · next found =>
    split at found
    · next brace =>
      rw [Text.cut?_of_notMem (h brace)] at found
      cases found
    · cases found
  · rfl

theorem piecesFrom_group (h : '\x7d' ∉ name.toList) (rest : List Char) :
    piecesFrom 0 ('\x7b' :: (name.toList ++ '\x7d' :: rest)) =
      .group name :: piecesFrom 0 rest := by
  rw [piecesFrom, if_pos rfl, Text.cut?_append h]
  dsimp only
  rw [piecesFrom_skip, String.ofList_toList, ← List.drop_drop, List.drop_left, List.drop_one,
    List.tail_cons]

/-- The ways in which a text goes on: with a group, or with a character that begins none. -/
theorem text_induction {motive : List Char → Prop} (nil : motive [])
    (char : ∀ c rest, (c = '\x7b' → '\x7d' ∉ rest) → motive rest → motive (c :: rest))
    (group : ∀ (name : String) rest, '\x7d' ∉ name.toList → motive rest →
      motive ('\x7b' :: (name.toList ++ '\x7d' :: rest))) :
    ∀ cs, motive cs
  | [] => nil
  | c :: rest => by
    by_cases open_ : c = '\x7b' ∧ '\x7d' ∈ rest
    · obtain ⟨rfl, closed⟩ := open_
      obtain ⟨name, after, rfl, first⟩ := List.eq_append_cons_of_mem closed
      have behind := text_induction nil char group after
      simpa using group (String.ofList name) after (by simpa using first) behind
    · exact char c rest (fun brace closed => open_ ⟨brace, closed⟩)
        (text_induction nil char group rest)
  termination_by cs => cs.length

/-- To take a text apart loses nothing. -/
theorem written_piecesFrom (cs : List Char) : written (piecesFrom 0 cs) = cs := by
  induction cs using text_induction with
  | nil => rfl
  | char c rest h ih => rw [piecesFrom_char h, written_char, ih]
  | group name rest h ih => rw [piecesFrom_group h, written_group, ih]

theorem Apart.piecesFrom_written (h : Apart ps) : piecesFrom 0 (written ps) = ps := by
  induction h with
  | nil => rfl
  | char open_ _ ih => rw [written_char, piecesFrom_char open_, ih]
  | group plain _ ih => rw [written_group, piecesFrom_group plain.2, ih]

theorem IsFlat.suffix (h : IsFlat (cs ++ rest)) : IsFlat rest := by
  induction cs with
  | nil => exact h
  | cons c cs ih => exact ih h.2

theorem apart_piecesFrom (flat : IsFlat cs) : Apart (piecesFrom 0 cs) := by
  induction cs using text_induction with
  | nil => exact .nil
  | char c rest h ih =>
    rw [piecesFrom_char h]
    exact .char (by rwa [written_piecesFrom]) (ih flat.2)
  | group name rest h ih =>
    have front : (name.toList ++ '\x7d' :: rest).takeWhile (· != '\x7d') = name.toList := by
      rw [List.takeWhile_append_of_pos (by simpa [List.forall_mem_ne'] using h)]
      simp
    have noOpening := flat.1 rfl (by simp)
    rw [front] at noOpening
    rw [piecesFrom_group h]
    exact .group ⟨noOpening, h⟩ (ih flat.2.suffix.2)

theorem written_pieces (text : String) : written (pieces text) = text.toList :=
  written_piecesFrom text.toList

/-- The groups of a flat text are told apart. -/
theorem apart_pieces {text : String} (flat : IsFlat text.toList) : Apart (pieces text) :=
  apart_piecesFrom flat

theorem Apart.groups_eq (h : Apart ps) {text : String} (eq : text.toList = written ps) :
    groups text = names ps := by
  rw [groups, pieces, eq, h.piecesFrom_written]

end Reading

section Filling

variable {f g : String → Option String}

@[simp] theorem fill_nil (f : String → Option String) : fill f [] = [] := rfl

@[simp] theorem fill_char (f : String → Option String) (c : Char) (ps : List Piece) :
    fill f (.char c :: ps) = .char c :: fill f ps := rfl

theorem fill_group_none (h : f name = none) (ps : List Piece) :
    fill f (.group name :: ps) = .group name :: fill f ps := by
  simp [fill, h]

theorem fill_group_some {s : String} (h : f name = some s) (ps : List Piece) :
    fill f (.group name :: ps) = s.toList.map .char ++ fill f ps := by
  simp [fill, h]

@[simp] theorem fill_append (f : String → Option String) (ps qs : List Piece) :
    fill f (ps ++ qs) = fill f ps ++ fill f qs := List.flatMap_append

@[simp] theorem fill_chars (f : String → Option String) (cs : List Char) :
    fill f (cs.map .char) = cs.map .char := by
  induction cs with
  | nil => rfl
  | cons c cs ih => rw [List.map_cons, fill_char, ih]

/-- What comes in for a group is not looked at again, so two substitutions are one. -/
theorem fill_fill (f g : String → Option String) (ps : List Piece) :
    fill g (fill f ps) = fill (fun name => (f name).or (g name)) ps := by
  induction ps with
  | nil => rfl
  | cons p ps ih =>
    cases p with
    | char c => simp [ih]
    | group name =>
      cases found : f name with
      | some s =>
        have both : (f name).or (g name) = some s := by rw [found, Option.some_or]
        rw [fill_group_some found, fill_group_some both, fill_append, ih, fill_chars]
      | none =>
        have both : (f name).or (g name) = g name := by rw [found, Option.none_or]
        rw [fill_group_none found]
        cases next : g name with
        | some s => rw [fill_group_some next, fill_group_some (both.trans next), ih]
        | none => rw [fill_group_none next, fill_group_none (both.trans next), ih]

theorem fill_eq_self (h : ∀ name, f name = none) (ps : List Piece) : fill f ps = ps := by
  induction ps with
  | nil => rfl
  | cons p ps ih =>
    cases p with
    | char c => rw [fill_char, ih]
    | group name => rw [fill_group_none (h name), ih]

/-- Without a closing brace there is no group to fill. -/
theorem fill_of_notMem (f : String → Option String) (h : '\x7d' ∉ written ps) :
    fill f ps = ps := by
  induction ps with
  | nil => rfl
  | cons p ps ih =>
    cases p with
    | char c => rw [fill_char, ih (not_or.mp (mt List.mem_cons.mpr h)).2]
    | group name => simp at h

theorem fill_congr (h : ∀ name ∈ names ps, f name = g name) : fill f ps = fill g ps := by
  induction ps with
  | nil => rfl
  | cons p ps ih =>
    cases p with
    | char c => rw [fill_char, fill_char, ih h]
    | group name =>
      obtain ⟨own, others⟩ := List.forall_mem_cons.mp h
      cases found : g name with
      | none => rw [fill_group_none found, fill_group_none (own.trans found), ih others]
      | some s => rw [fill_group_some found, fill_group_some (own.trans found), ih others]

/-- Characters that open no group can be put in front. -/
theorem Apart.chars_append (h : Apart ps) (opening : '\x7b' ∉ cs) :
    Apart (cs.map .char ++ ps) := by
  induction cs with
  | nil => exact h
  | cons c cs ih =>
    obtain ⟨other, others⟩ := not_or.mp (mt List.mem_cons.mpr opening)
    exact .char (fun brace => absurd brace.symm other) (ih others)

/-- Characters that close no group can be put behind. -/
theorem Apart.append_chars (h : Apart ps) (opening : '\x7b' ∉ cs) (closing : '\x7d' ∉ cs) :
    Apart (ps ++ cs.map .char) := by
  induction h with
  | nil =>
    have alone := Apart.nil.chars_append opening
    rwa [List.append_nil] at alone
  | char open_ _ ih => exact .char (fun brace => by simp [open_ brace, closing]) ih
  | group plain _ ih => exact .group plain ih

/-- Texts without braces make no new group. -/
theorem Apart.fill (h : Apart ps) (plain : ∀ name s, f name = some s → IsPlain s) :
    Apart (fill f ps) := by
  induction h with
  | nil => exact .nil
  | char open_ _ ih =>
    rw [fill_char]
    refine .char (fun brace => ?_) ih
    rw [fill_of_notMem f (open_ brace)]
    exact open_ brace
  | @group name rest plainName _ ih =>
    cases found : f name with
    | none =>
      rw [fill_group_none found]
      exact .group plainName ih
    | some s =>
      rw [fill_group_some found]
      exact ih.chars_append (plain name s found).1

end Filling

section Occurrences

/-- A group does not begin at a character that begins none. -/
theorem group_not_prefix_char {c : Char} (open_ : c = '\x7b' → '\x7d' ∉ cs) :
    ¬(group name).toList <+: c :: cs := by
  rw [toList_group]
  intro front
  obtain ⟨brace, front⟩ := List.cons_prefix_cons.mp front
  exact open_ brace.symm (front.subset (by simp))

/-- The group that begins at a group is this group. -/
theorem group_prefix_iff {other : String} (plain : '\x7d' ∉ name.toList)
    (plainOther : '\x7d' ∉ other.toList) :
    (group name).toList <+: '\x7b' :: (other.toList ++ '\x7d' :: cs) ↔ name = other := by
  rw [toList_group]
  constructor
  · rintro ⟨behind, eq⟩
    rw [List.cons_append, List.append_assoc, List.singleton_append] at eq
    have cut := congrArg (Text.cut? '\x7d') (List.cons.inj eq).2
    rw [Text.cut?_append plain, Text.cut?_append plainOther] at cut
    exact String.toList_injective (congrArg Prod.fst (Option.some.inj cut))
  · rintro rfl
    exact ⟨cs, by simp⟩

/-- In the text of pieces that are apart, to replace a group is to fill it. -/
theorem replaceFrom_written (h : Apart ps) (plain : IsPlain name) (new : String) :
    Text.replaceFrom (group name).toList new.toList 0 (written ps) =
      written (fill (fun other => if other = name then some new else none) ps) := by
  induction h with
  | nil => rfl
  | char open_ _ ih =>
    rw [fill_char, written_char, written_char, Text.replaceFrom,
      if_neg (mt List.isPrefixOf_iff_prefix.mp (group_not_prefix_char open_)), ih]
  | @group other rest plainOther _ ih =>
    by_cases same : other = name
    · subst same
      rw [fill_group_some (if_pos rfl), written_append, written_chars, ← ih, written_group,
        toList_group]
      simpa using Text.replaceFrom_found '\x7b' (other.toList ++ ['\x7d']) new.toList (written rest)
    · have elsewhere :
          ¬(group name).toList <+: '\x7b' :: (other.toList ++ '\x7d' :: written rest) :=
        mt (group_prefix_iff plain.2 plainOther.2).mp (Ne.symm same)
      have front : '\x7b' ∉ other.toList ++ ['\x7d'] := by simpa using plainOther.1
      have behind :=
        Text.replaceFrom_front front (name.toList ++ ['\x7d']) new.toList (written rest)
      rw [List.append_assoc, List.singleton_append, ← toList_group, ih] at behind
      rw [fill_group_none (if_neg same), written_group, written_group, Text.replaceFrom,
        if_neg (mt List.isPrefixOf_iff_prefix.mp elsewhere), behind, List.append_assoc,
        List.singleton_append]

/-- The text of a group occurs where the group is a piece. -/
theorem group_infix_iff (h : Apart ps) (plain : IsPlain name) :
    (group name).toList <:+: written ps ↔ name ∈ names ps := by
  induction h with
  | nil => simp
  | char open_ _ ih =>
    rw [written_char, List.infix_cons_iff, ih, names_char]
    exact or_iff_right (group_not_prefix_char open_)
  | @group other rest plainOther _ ih =>
    have front : '\x7b' ∉ other.toList ++ ['\x7d'] := by simpa using plainOther.1
    have behind := Text.infix_front front (name.toList ++ ['\x7d']) (written rest)
    rw [List.append_assoc, List.singleton_append, ← toList_group, ih] at behind
    rw [written_group, List.infix_cons_iff, group_prefix_iff plain.2 plainOther.2, behind,
      names_group, List.mem_cons]

/-- In a flat template the text of a group occurs where the group is told apart. -/
theorem group_infix_template_iff {template : String} (flat : IsFlat template.toList)
    (plain : IsPlain name) :
    (group name).toList <:+: template.toList ↔ name ∈ groups template := by
  have found := group_infix_iff (apart_pieces flat) plain
  rwa [written_pieces] at found

/-- The groups that are left are those for which there is no text. -/
theorem names_fill (f : String → Option String) (ps : List Piece) :
    names (fill f ps) = (names ps).filter fun name => (f name).isNone := by
  induction ps with
  | nil => rfl
  | cons p ps ih =>
    cases p with
    | char c => rw [fill_char, names_char, names_char, ih]
    | group name =>
      rw [names_group, List.filter_cons]
      cases found : f name with
      | none => rw [fill_group_none found, names_group, ih, Option.isNone_none, if_pos rfl]
      | some s =>
        rw [fill_group_some found, names_append, names_chars, ih, Option.isNone_some,
          if_neg Bool.false_ne_true, List.nil_append]

end Occurrences

end RequestWriter.Url
