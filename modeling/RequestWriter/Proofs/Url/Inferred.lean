import RequestWriter.Proofs.Url.Path
import Mathlib.Data.List.Infix

/-!
# Values without declarations

A value that no document declares goes into the path where its group occurs in the template, and
into the query otherwise. Where it goes is decided on the template, before the first group is
filled. Every value that is not empty is used in one of the two places, and the groups that are left
are those for which there is no value.
-/

namespace RequestWriter.Url

variable {template : String} {values : List (String × String)}

/-- Texts as values of parameters. -/
def ofTexts (values : List (String × String)) : Values :=
  values.map fun entry => (entry.1, .text entry.2)

/-- The encoded value of a name, if there is one and it is not empty. -/
def givenText? (values : List (String × String)) (name : String) : Option String :=
  (Entries.get? name values).bind fun s => if s = "" then none else some (Text.percentEncode s)

/-- The pairs of the values that are not empty and whose groups do not occur in the template. -/
def leftoverPairs (template : String) (values : List (String × String)) : List String :=
  (values.filter fun entry =>
    entry.2 ≠ "" ∧ ¬(group entry.1).toList <:+: template.toList).map
      fun entry => entry.1 ++ "=" ++ Text.percentEncode entry.2

section Declarations

theorem get?_ofTexts (values : List (String × String)) (name : String) :
    Entries.get? name (ofTexts values) = (Entries.get? name values).map Value.text := by
  induction values with
  | nil => rfl
  | cons entry values ih =>
    rw [ofTexts, List.map_cons, ← ofTexts, Entries.get?, Entries.get?, ih]
    split <;> rfl

theorem keys_ofTexts (values : List (String × String)) :
    (ofTexts values).map Prod.fst = values.map Prod.fst := by
  simp [ofTexts, Function.comp_def]

theorem truthy_text (s : String) : (Value.text s).truthy = decide (s ≠ "") := by
  rw [Bool.eq_iff_iff]
  simp [Value.truthy, Value.text, Scalar.truthy]

theorem encodeValue_text (s : String) : encodeValue (.text s) = Text.percentEncode s := rfl

/-- An inferred declaration is for the path exactly if the group occurs in the template. -/
theorem declares_inferParameters {given : Values} {name location : String} :
    declares (inferParameters template given) name location = true ↔
      name ∈ given.map Prod.fst ∧
        location = if (group name).toList <:+: template.toList then "path" else "query" := by
  simp only [declares, inferParameters, List.any_map, List.any_eq_true, Function.comp_apply,
    Bool.and_eq_true, beq_iff_eq, List.mem_map, Text.occurs_iff]
  constructor
  · rintro ⟨entry, mem, rfl, rfl⟩
    exact ⟨⟨entry, mem, rfl⟩, rfl⟩
  · rintro ⟨⟨entry, mem, rfl⟩, rfl⟩
    exact ⟨entry, mem, rfl, rfl⟩

end Declarations

section Places

theorem queryPairs_inferred (template : String) (values : List (String × String)) :
    queryPairs (inferParameters template (ofTexts values)) (ofTexts values) =
      leftoverPairs template values := by
  have places : ∀ entry ∈ values,
      ((Value.text entry.2).truthy &&
        declares (inferParameters template (ofTexts values)) entry.1 "query") =
      decide (entry.2 ≠ "" ∧ ¬(group entry.1).toList <:+: template.toList) := by
    intro entry mem
    have key : entry.1 ∈ (ofTexts values).map Prod.fst := by
      rw [keys_ofTexts]
      exact List.mem_map_of_mem mem
    rw [truthy_text, Bool.eq_iff_iff, Bool.and_eq_true, declares_inferParameters,
      decide_eq_true_iff, decide_eq_true_iff]
    refine and_congr_right fun _ => ?_
    split
    · next occurs => exact ⟨fun h => absurd h.2 (by decide), fun h => absurd occurs h⟩
    · next fresh => exact ⟨fun _ => fresh, fun _ => ⟨key, rfl⟩⟩
  rw [queryPairs, ofTexts, List.filter_map, List.map_map, ← ofTexts, leftoverPairs]
  exact congrArg _ (List.filter_congr places)

/-- The groups of the template are filled from all values that are not empty. -/
theorem fillPath_inferred (flat : IsFlat template.toList)
    (plain : ∀ entry ∈ values, IsPlain entry.1) (nodup : (values.map Prod.fst).Nodup) :
    fillPath template (inferParameters template (ofTexts values)) (ofTexts values) =
      fillGroups (givenText? values) template := by
  have plain' : ∀ entry ∈ ofTexts values, IsPlain entry.1 := List.forall_mem_map.mpr plain
  rw [fillPath_eq_fillGroups _ flat plain' (by rwa [keys_ofTexts]), fillGroups, fillGroups]
  refine congrArg (fun ps => String.ofList (written ps)) (fill_congr fun name mem => ?_)
  rw [pathText?, get?_ofTexts, givenText?]
  cases found : Entries.get? name values with
  | none => rfl
  | some s =>
    have listed := (Entries.get?_eq_some_iff nodup).mp found
    have occurs := (group_infix_template_iff flat (plain _ listed)).mpr mem
    have declared : declares (inferParameters template (ofTexts values)) name "path" = true := by
      rw [declares_inferParameters, if_pos occurs, keys_ofTexts]
      exact ⟨List.mem_map_of_mem listed, rfl⟩
    rw [Option.map_some, Option.bind_some, declared, truthy_text, Bool.and_true]
    by_cases empty : s = "" <;> simp [empty, encodeValue_text]

end Places

section Groups

theorem isPlain_append {s t : String} (h : IsPlain s) (h' : IsPlain t) : IsPlain (s ++ t) := by
  simp only [IsPlain, String.toList_append, List.mem_append, not_or]
  exact ⟨⟨h.1, h'.1⟩, h.2, h'.2⟩

theorem isPlain_join {sep : String} (plainSep : IsPlain sep) {parts : List String}
    (plain : ∀ part ∈ parts, IsPlain part) : IsPlain (Text.join sep parts) := by
  induction parts with
  | nil => exact ⟨List.not_mem_nil, List.not_mem_nil⟩
  | cons part parts ih =>
    obtain ⟨own, others⟩ := List.forall_mem_cons.mp plain
    cases parts with
    | nil => exact own
    | cons next parts => exact isPlain_append (isPlain_append own plainSep) (ih others)

/-- What is appended to a URL has no braces if the pairs have none. -/
theorem exists_appendQuery {pairs : List String} (plain : ∀ pair ∈ pairs, IsPlain pair)
    (url : String) : ∃ query, IsPlain query ∧ appendQuery url pairs = url ++ query := by
  rw [appendQuery]
  split
  · exact ⟨"", by decide, by simp⟩
  · have mark : IsPlain (if url.toList.contains '?' then "&" else "?") := by split <;> decide
    exact ⟨_, isPlain_append mark (isPlain_join (by decide) plain), String.append_assoc⟩

theorem isPlain_leftoverPairs (plain : ∀ entry ∈ values, IsPlain entry.1) :
    ∀ pair ∈ leftoverPairs template values, IsPlain pair := by
  rw [leftoverPairs, List.forall_mem_map]
  intro entry mem
  have name := plain entry (List.mem_of_mem_filter mem)
  exact isPlain_append (isPlain_append name (by decide)) (isPlain_encodeValue (.text entry.2))

theorem isPlain_of_givenText? (name s : String) (h : givenText? values name = some s) :
    IsPlain s := by
  obtain ⟨t, -, h⟩ := Option.bind_eq_some_iff.mp h
  split at h
  · cases h
  · cases h
    exact isPlain_encodeValue (.text t)

/-- The pieces of the URL are those of the filled template and the characters of the query. -/
theorem exists_pieces (flat : IsFlat template.toList) (plain : ∀ entry ∈ values, IsPlain entry.1) :
    ∃ query : List Char,
      Apart (fill (givenText? values) (pieces template) ++ query.map .char) ∧
      (appendQuery (fillGroups (givenText? values) template)
          (leftoverPairs template values)).toList =
        written (fill (givenText? values) (pieces template) ++ query.map .char) := by
  obtain ⟨query, plainQuery, appended⟩ := exists_appendQuery
    (isPlain_leftoverPairs plain) (fillGroups (givenText? values) template)
  have filled : Apart (fill (givenText? values) (pieces template)) :=
    (apart_pieces flat).fill isPlain_of_givenText?
  refine ⟨query.toList, filled.append_chars plainQuery.1 plainQuery.2, ?_⟩
  rw [appended, fillGroups, String.toList_append, String.toList_ofList, written_append,
    written_chars]

end Groups

/-- Of the values without declarations each one that is not empty is used once. One whose group
occurs in the template fills it, so no such group is left and no pair is made; any other one makes a
pair of the query, in the order of the values, and there is no group for it to fill. An empty value
is not used. The groups that are left are those of the template without a value or with an empty
one, in their order. -/
theorem build_inferred (flat : IsFlat template.toList) (plain : ∀ entry ∈ values, IsPlain entry.1)
    (nodup : (values.map Prod.fst).Nodup) :
    let url := build template (inferParameters template (ofTexts values)) (ofTexts values)
    url = appendQuery (fillGroups (givenText? values) template) (leftoverPairs template values) ∧
      groups url = (groups template).filter (fun name =>
        Entries.get? name values = none ∨ Entries.get? name values = some "") ∧
      ∀ entry ∈ values,
        ((group entry.1).toList <:+: template.toList ↔ entry.1 ∈ groups template) ∧
        (entry.2 ≠ "" → ¬(group entry.1).toList <:+: url.toList) := by
  intro url
  have built : url =
      appendQuery (fillGroups (givenText? values) template) (leftoverPairs template values) := by
    rw [← fillPath_inferred flat plain nodup, ← queryPairs_inferred]
    rfl
  obtain ⟨query, apart, text⟩ := exists_pieces flat plain
  rw [← built] at text
  have left :
      groups url = (groups template).filter fun name => (givenText? values name).isNone := by
    rw [apart.groups_eq text, names_append, names_chars, List.append_nil, names_fill]
    rfl
  refine ⟨built, left.trans (List.filter_congr fun name _ => ?_), fun entry mem =>
    ⟨group_infix_template_iff flat (plain entry mem), fun given occurs => ?_⟩⟩
  · rw [givenText?]
    cases Entries.get? name values with
    | none => simp
    | some s => by_cases empty : s = "" <;> simp [empty]
  · rw [text, group_infix_iff apart (plain entry mem), ← apart.groups_eq text, left] at occurs
    have unfilled := (List.mem_filter.mp occurs).2
    rw [givenText?, (Entries.get?_eq_some_iff nodup).mpr mem, Option.bind_some, if_neg given]
      at unfilled
    cases unfilled

/-- A template with a name twice, a longer name that begins with it, and two more names. -/
def shelves : String := "/\x7ba\x7d/\x7bab\x7d/\x7bc\x7d?copy=\x7ba\x7d&\x7bb\x7d"

/-- Values for `shelves`: one of them is empty, two occur in no group. -/
def shelfValues : List (String × String) :=
  [("q", "x&y"), ("a", "\x7bb\x7d"), ("c", ""), ("b", "1"), ("size", "2")]

/-- The conditions of `build_inferred` hold for `shelves`. -/
theorem shelves_filled :
    IsFlat shelves.toList ∧ (∀ entry ∈ shelfValues, IsPlain entry.1) ∧
      (shelfValues.map Prod.fst).Nodup ∧
      build shelves (inferParameters shelves (ofTexts shelfValues)) (ofTexts shelfValues) =
        "/%7Bb%7D/\x7bab\x7d/\x7bc\x7d?copy=%7Bb%7D&1&q=x%26y&size=2" ∧
      groups (build shelves (inferParameters shelves (ofTexts shelfValues)) (ofTexts shelfValues)) =
        ["ab", "c"] := by
  have flat : IsFlat shelves.toList := by decide +kernel
  have plain : ∀ entry ∈ shelfValues, IsPlain entry.1 := by decide +kernel
  have nodup : (shelfValues.map Prod.fst).Nodup := by decide +kernel
  obtain ⟨built, left, -⟩ := build_inferred flat plain nodup
  exact ⟨flat, plain, nodup, built.trans (by decide +kernel), left.trans (by decide +kernel)⟩

end RequestWriter.Url
