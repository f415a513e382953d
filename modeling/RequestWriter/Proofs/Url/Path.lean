import RequestWriter.Proofs.Entries
import RequestWriter.Proofs.Text.Percent
import RequestWriter.Proofs.Url.Template
import Mathlib.Data.Bool.AllAny

/-!
# The groups of a path are filled at once

Values are put into a template one after another, into a text that holds the earlier ones. What
comes in is percent-encoded, so it has no braces, and the result is that of a single substitution.
-/

namespace RequestWriter.Url

open Text (PercentEncoded percentDecode?)

variable {template : String} {values : Values} {ps : List Piece}

section Encoded

theorem percentEncoded_encodeValue (v : Value) : PercentEncoded (encodeValue v).toList :=
  Text.percentEncoded_encode v.display

/-- None of the characters that delimit the parts of a URL or the groups of a template stands in an
encoded value. -/
theorem notMem_encodeValue (v : Value) :
    ∀ c ∈ "/?#&=\x7b\x7d".toList, c ∉ (encodeValue v).toList := by
  have reserved : ∀ c ∈ "/?#&=\x7b\x7d".toList, Text.isUnreserved c = false ∧ c ≠ '%' :=
    List.all_iff_forall_prop.mp (by decide)
  intro c mem
  exact (percentEncoded_encodeValue v).notMem (reserved c mem).1 (reserved c mem).2

theorem isPlain_encodeValue (v : Value) : IsPlain (encodeValue v) :=
  ⟨notMem_encodeValue v _ (by decide), notMem_encodeValue v _ (by decide)⟩

end Encoded

/-- What stands in the place of a group: the encoded value of the name, if there is one, it counts
as given and the path declares the name. -/
def pathText? (parameters : List Parameter) (values : Values) (name : String) : Option String :=
  (Entries.get? name values).bind fun v =>
    if v.truthy && declares parameters name "path" then some (encodeValue v) else none

section Filling

variable (parameters : List Parameter)

theorem isPlain_of_pathText? (name s : String)
    (h : pathText? parameters values name = some s) :
    IsPlain s := by
  obtain ⟨v, -, h⟩ := Option.bind_eq_some_iff.mp h
  split at h
  · cases h
    exact isPlain_encodeValue v
  · cases h

theorem pathText?_perm {reordered : Values} (perm : reordered.Perm values)
    (nodup : (values.map Prod.fst).Nodup) :
    pathText? parameters reordered = pathText? parameters values := by
  funext name
  rw [pathText?, Entries.get?_perm perm nodup]
  rfl

theorem pathText?_eq_none {name : String} (h : name ∉ values.map Prod.fst) :
    pathText? parameters values name = none := by
  have absent : Entries.get? name values = none := by
    refine Entries.get?_eq_none fun entry mem => beq_eq_false_iff_ne.mpr ?_
    rintro rfl
    exact h (List.mem_map_of_mem mem)
  rw [pathText?, absent, Option.bind_none]

/-- The text for a group comes from the first value or from the others. -/
theorem pathText?_cons {entry : String × Value} (fresh : entry.1 ∉ values.map Prod.fst)
    (name : String) :
    pathText? parameters (entry :: values) name =
      (pathText? parameters [entry] name).or (pathText? parameters values name) := by
  by_cases same : entry.1 = name
  · have later : pathText? parameters values name = none :=
      pathText?_eq_none parameters (same ▸ fresh)
    rw [later, Option.or_none]
    simp [pathText?, Entries.get?, same]
  · simp [pathText?, Entries.get?, same]

/-- One step of the loop fills the groups of one name. -/
theorem step_written (apart : Apart ps) {entry : String × Value} (plain : IsPlain entry.1) :
    (if entry.2.truthy && declares parameters entry.1 "path" then
        Text.replace (group entry.1) (encodeValue entry.2) (String.ofList (written ps))
      else String.ofList (written ps)) =
      String.ofList (written (fill (pathText? parameters [entry]) ps)) := by
  have single (name : String) : pathText? parameters [entry] name =
      if entry.1 = name then
        if entry.2.truthy && declares parameters name "path" then some (encodeValue entry.2)
        else none
      else none := by
    by_cases same : entry.1 = name <;> simp [pathText?, Entries.get?, same]
  split
  · next given =>
    rw [Text.replace, String.toList_ofList, replaceFrom_written apart plain]
    congr 3
    funext name
    by_cases same : name = entry.1
    · rw [single, if_pos same, if_pos same.symm, same, if_pos given]
    · rw [single, if_neg same, if_neg (Ne.symm same)]
  · next given =>
    rw [fill_eq_self fun name => ?_]
    rw [single]
    split
    · next same => rw [← same, if_neg given]
    · rfl

/-- The induction is on the values. The text of the template changes with each of them, and stays
the text of pieces that are apart. -/
theorem fillPath_written (apart : Apart ps) (plain : ∀ entry ∈ values, IsPlain entry.1)
    (nodup : (values.map Prod.fst).Nodup) :
    fillPath (String.ofList (written ps)) parameters values =
      String.ofList (written (fill (pathText? parameters values) ps)) := by
  induction values generalizing ps with
  | nil =>
    rw [fill_eq_self fun name => pathText?_eq_none parameters List.not_mem_nil]
    rfl
  | cons entry values ih =>
    obtain ⟨own, plain⟩ := List.forall_mem_cons.mp plain
    obtain ⟨fresh, nodup⟩ := List.nodup_cons.mp nodup
    calc fillPath (String.ofList (written ps)) parameters (entry :: values)
      _ = fillPath (String.ofList (written (fill (pathText? parameters [entry]) ps))) parameters
          values := by rw [← step_written parameters apart own]; rfl
      _ = String.ofList (written (fill (pathText? parameters values)
          (fill (pathText? parameters [entry]) ps))) :=
        ih (apart.fill (isPlain_of_pathText? parameters)) plain nodup
      _ = String.ofList (written (fill (pathText? parameters (entry :: values)) ps)) := by
        rw [fill_fill, funext (pathText?_cons parameters fresh)]

theorem fillPath_eq_fillGroups (flat : IsFlat template.toList)
    (plain : ∀ entry ∈ values, IsPlain entry.1) (nodup : (values.map Prod.fst).Nodup) :
    fillPath template parameters values = fillGroups (pathText? parameters values) template := by
  have filled := fillPath_written parameters (apart_pieces flat) plain nodup
  rwa [written_pieces, String.ofList_toList] at filled

end Filling

/-- Up to the query, a URL is its template with the declared path values in the place of their
groups, all at once and in whatever order the values come. What is put there consists of unreserved
characters and percent groups, holds no delimiter, and is the value when it is decoded. -/
theorem build_simultaneous {parameters : List Parameter} (flat : IsFlat template.toList)
    (plain : ∀ entry ∈ values, IsPlain entry.1) (nodup : (values.map Prod.fst).Nodup) :
    let filled := fillGroups (pathText? parameters values) template
    build template parameters values = appendQuery filled (queryPairs parameters values) ∧
      (∀ reordered : Values, reordered.Perm values →
        build template parameters reordered =
          appendQuery filled (queryPairs parameters reordered)) ∧
      ∀ v : Value, PercentEncoded (encodeValue v).toList ∧
        (∀ c ∈ "/?#&=\x7b\x7d".toList, c ∉ (encodeValue v).toList) ∧
        percentDecode? (encodeValue v) = some v.display := by
  intro filled
  have ordered (reordered : Values) (perm : reordered.Perm values) :
      build template parameters reordered =
        appendQuery filled (queryPairs parameters reordered) := by
    have plain' : ∀ entry ∈ reordered, IsPlain entry.1 :=
      fun entry mem => plain entry (perm.mem_iff.mp mem)
    have nodup' : (reordered.map Prod.fst).Nodup := (perm.map Prod.fst).nodup_iff.mpr nodup
    rw [build, fillPath_eq_fillGroups parameters flat plain' nodup',
      pathText?_perm parameters perm nodup]
  exact ⟨ordered values (.refl _), ordered, fun v => ⟨percentEncoded_encodeValue v,
    notMem_encodeValue v, Text.percentDecode?_encode v.display⟩⟩

/-- A path with two names, one of them twice, in front of braces that are no group. -/
def visits : String := "/\x7bpet\x7d/\x7bday\x7d/\x7bpet\x7d?in=\x7bcity\x7d#\x7b"

/-- The parameters of the path of `visits`. -/
def visitParameters : List Parameter :=
  [⟨"pet", "path", true, "string", ""⟩, ⟨"day", "path", true, "string", ""⟩]

/-- The value of one name is spelled like the group of another one. -/
def visitValues : Values :=
  [("pet", .text "\x7bday\x7d"), ("day", .text "é/1"), ("city", .text "x")]

/-- The conditions of `build_simultaneous` hold for `visits`. -/
theorem visits_filled :
    IsFlat visits.toList ∧ (∀ entry ∈ visitValues, IsPlain entry.1) ∧
      (visitValues.map Prod.fst).Nodup ∧
      build visits visitParameters visitValues =
        "/%7Bday%7D/%C3%A9%2F1/%7Bday%7D?in=\x7bcity\x7d#\x7b" ∧
      build visits visitParameters visitValues.reverse =
        "/%7Bday%7D/%C3%A9%2F1/%7Bday%7D?in=\x7bcity\x7d#\x7b" := by
  have flat : IsFlat visits.toList := by decide +kernel
  have plain : ∀ entry ∈ visitValues, IsPlain entry.1 := by decide +kernel
  have nodup : (visitValues.map Prod.fst).Nodup := by decide +kernel
  obtain ⟨own, any, -⟩ := @build_simultaneous visits visitValues visitParameters flat plain nodup
  exact ⟨flat, plain, nodup, own.trans (by decide +kernel),
    (any _ (List.reverse_perm _)).trans (by decide +kernel)⟩

end RequestWriter.Url
