import RequestWriter.Proofs.Url.Path
import Mathlib.Data.List.TakeWhile

/-!
# What a query says

The query of a URL read back: the part between the first question mark and the fragment, in pairs,
each side percent-decoded. The pairs that are appended to a template are read as they were given
exactly if the template has no fragment, which would take them in, and each name, which is written
as it is, stands for itself.
-/

namespace RequestWriter.Url

/-- The text up to the fragment. -/
def beforeFragment (url : List Char) : List Char := url.takeWhile (· != '#')

/-- The query of a URL: what stands behind the first question mark, up to the fragment. -/
def query? (url : List Char) : Option (List Char) :=
  (Text.cut? '?' (beforeFragment url)).map Prod.snd

/-- A text in its decoded form, if it has one. -/
def decoded? (cs : List Char) : Option String := Text.percentDecode? (String.ofList cs)

/-- A name and a value, parted at the first equals sign. Without one the value is empty. -/
def field (piece : List Char) : Option String × Option String :=
  match Text.cut? '=' piece with
  | some (name, value) => (decoded? name, decoded? value)
  | none => (decoded? piece, decoded? [])

/-- The names and values of a query. -/
def fields (query : List Char) : List (Option String × Option String) :=
  (Text.split '&' query).map field

/-- The names and values of the query of a URL, none if it has no query. -/
def queryFields (url : String) : List (Option String × Option String) :=
  (query? url.toList).elim [] fields

/-- Whether a character ends a name in a query: the mark of the next pair, of the value or of the
fragment. -/
def endsName (c : Char) : Bool := c == '&' || c == '=' || c == '#'

/-- The declared query values that count as given. -/
def sentValues (parameters : List Parameter) (values : Values) : Values :=
  values.filter fun entry => entry.2.truthy && declares parameters entry.1 "query"

/-- The name is read as itself: it holds none of the characters that end a name in a query, and no
percent group. -/
structure IsLiteral (name : String) : Prop where
  unended : ∀ c ∈ name.toList, endsName c = false
  decoded : Text.percentDecode? name = some name

/-- A name and a value as they stand in a query. -/
def pairText (entry : String × Value) : String := entry.1 ++ "=" ++ encodeValue entry.2

/-- A name and a value as they are meant. -/
def meant (entry : String × Value) : Option String × Option String :=
  (some entry.1, some entry.2.display)

variable {cs : List Char} {entry : String × Value}

section Fields

/-- What stands behind a character at which the reading stops does not matter. -/
theorem takeWhile_append_stop {p : Char → Bool} {c : Char} (stop : p c = false)
    (cs ds : List Char) : (cs ++ c :: ds).takeWhile p = cs.takeWhile p := by
  induction cs with
  | nil => simp [stop]
  | cons d cs ih => rw [List.cons_append, List.takeWhile_cons, List.takeWhile_cons, ih]

theorem fields_append (cs ds : List Char) : fields (cs ++ '&' :: ds) = fields cs ++ fields ds := by
  rw [fields, Text.split_append, List.map_append]
  rfl

theorem decoded?_encodeValue (v : Value) : decoded? (encodeValue v).toList = some v.display := by
  rw [decoded?, String.ofList_toList, encodeValue, Text.percentDecode?_encode]

/-- The first name goes up to the first character that ends a name. -/
theorem head?_fields (cs : List Char) :
    (fields (beforeFragment cs)).head?.map Prod.fst =
      some (decoded? (cs.takeWhile fun c => !endsName c)) := by
  have first (piece : List Char) : (field piece).1 = decoded? (piece.takeWhile (· != '=')) := by
    rw [field]
    by_cases mem : '=' ∈ piece
    · rw [Text.cut?_of_mem mem]
    · rw [Text.cut?_of_notMem mem, List.takeWhile_eq_self_iff.mpr]
      exact fun _ inside => bne_iff_ne.mpr fun eq => mem (eq ▸ inside)
  have ends : (fun c : Char => decide ((c != '=') = true ∧ (c != '&') = true ∧ (c != '#') = true)) =
      fun c => !endsName c := by
    funext c
    rw [Bool.eq_iff_iff]
    simp [endsName, and_comm, and_assoc]
  obtain ⟨parts, eq⟩ := Text.split_eq_cons '&' (beforeFragment cs)
  rw [fields, eq, List.map_cons, List.head?_cons, Option.map_some, first, beforeFragment,
    List.takeWhile_takeWhile, List.takeWhile_takeWhile]
  simp only [decide_eq_true_eq, and_assoc, ends]

theorem toList_pairText (entry : String × Value) :
    (pairText entry).toList = entry.1.toList ++ '=' :: (encodeValue entry.2).toList := by
  simp [pairText]

/-- If the first name that is read is the one that is meant, it stands for itself: what is read
cannot be longer than the text up to the first end of a name. -/
theorem isLiteral_of_head (rest : List Char)
    (h : (fields (beforeFragment ((pairText entry).toList ++ rest))).head?.map Prod.fst =
      some (some entry.1)) : IsLiteral entry.1 := by
  rw [head?_fields, toList_pairText, List.append_assoc, List.cons_append,
    takeWhile_append_stop (by decide), Option.some.injEq] at h
  have long := Text.length_le_of_percentDecode? h
  rw [String.toList_ofList] at long
  have whole := (List.takeWhile_prefix fun c => !endsName c).eq_of_length_le long
  rw [whole, decoded?, String.ofList_toList] at h
  refine ⟨fun c mem => ?_, h⟩
  simpa using List.takeWhile_eq_self_iff.mp whole c mem

theorem beforeFragment_append (h : '#' ∉ cs) (ds : List Char) :
    beforeFragment (cs ++ ds) = cs ++ beforeFragment ds :=
  List.takeWhile_append_of_pos fun _ mem => bne_iff_ne.mpr fun eq => h (eq ▸ mem)

theorem notMem_pairText (literal : IsLiteral entry.1) {c : Char} (mark : c = '&' ∨ c = '#') :
    c ∉ (pairText entry).toList := by
  have ends : endsName c = true := by rcases mark with rfl | rfl <;> decide
  have name : c ∉ entry.1.toList := fun mem => by simp [literal.unended c mem] at ends
  have value := notMem_encodeValue entry.2 c (by rcases mark with rfl | rfl <;> decide)
  have other : c ≠ '=' := by rcases mark with rfl | rfl <;> decide
  simp [toList_pairText, name, value, other]

/-- A pair whose name stands for itself is read as it is meant. -/
theorem fields_pairText (literal : IsLiteral entry.1) :
    fields (pairText entry).toList = [meant entry] := by
  have name : '=' ∉ entry.1.toList := fun mem => by simpa [endsName] using literal.unended _ mem
  rw [fields, Text.split_of_notMem (notMem_pairText literal (.inl rfl)), List.map_singleton, field,
    toList_pairText, Text.cut?_append name]
  dsimp only
  rw [decoded?_encodeValue, decoded?, String.ofList_toList, literal.decoded]
  rfl

/-- Pairs are read as they are meant exactly if all names stand for themselves. The induction is on
the pairs behind the first one; the first field decides about the first name. -/
theorem fields_pairs_iff (entry : String × Value) (rest : Values) :
    fields (beforeFragment (Text.join "&" ((entry :: rest).map pairText)).toList) =
        (entry :: rest).map meant ↔
      ∀ sent ∈ entry :: rest, IsLiteral sent.1 := by
  have first {entry : String × Value} {tail : List Char}
      {others : List (Option String × Option String)}
      (h : fields (beforeFragment ((pairText entry).toList ++ tail)) = meant entry :: others) :
      IsLiteral entry.1 := isLiteral_of_head tail (by rw [h]; rfl)
  induction rest generalizing entry with
  | nil =>
    simp only [List.map_cons, List.map_nil, Text.join_singleton, List.forall_mem_singleton]
    rw [← List.append_nil (pairText entry).toList]
    refine ⟨first, fun literal => ?_⟩
    rw [beforeFragment_append (notMem_pairText literal (.inr rfl)), ← fields_pairText literal]
    simp [beforeFragment]
  | cons next rest ih =>
    have text : (Text.join "&" ((entry :: next :: rest).map pairText)).toList =
        (pairText entry).toList ++
          '&' :: (Text.join "&" ((next :: rest).map pairText)).toList := by
      simp [Text.join_cons_cons]
    rw [text, List.forall_mem_cons]
    change fields _ = meant entry :: (next :: rest).map meant ↔ _
    by_cases literal : IsLiteral entry.1
    · rw [beforeFragment_append (notMem_pairText literal (.inr rfl)), beforeFragment,
        List.takeWhile_cons_of_pos (by decide), ← beforeFragment, fields_append,
        fields_pairText literal, List.singleton_append, List.cons.injEq, and_iff_right rfl]
      exact (ih next).trans (and_iff_right literal).symm
    · exact ⟨fun h => absurd (first h) literal, fun h => absurd h.1 literal⟩

end Fields

section Urls

/-- What stands behind a fragment is not read. -/
theorem queryFields_behind {url : String} (fragment : '#' ∈ url.toList) (text : String) :
    queryFields (url ++ text) = queryFields url := by
  have same : beforeFragment (url ++ text).toList = beforeFragment url.toList := by
    obtain ⟨path, inside, eq⟩ := List.append_of_mem fragment
    rw [String.toList_append, eq, List.append_assoc, List.cons_append, beforeFragment,
      beforeFragment, takeWhile_append_stop (by decide), takeWhile_append_stop (by decide)]
  rw [queryFields, queryFields, query?, query?, same]

/-- Without a fragment the pairs that are appended are read behind those of the URL. -/
theorem queryFields_append {url : String} (noFragment : '#' ∉ url.toList) (pairs : String) :
    queryFields (url ++ (if url.toList.contains '?' then "&" else "?") ++ pairs) =
      queryFields url ++ fields (beforeFragment pairs.toList) := by
  have own : beforeFragment url.toList = url.toList := by
    simpa [beforeFragment] using beforeFragment_append noFragment []
  rw [queryFields, queryFields, query?, query?, own, String.toList_append, String.toList_append,
    List.append_assoc, beforeFragment_append noFragment]
  by_cases asked : '?' ∈ url.toList
  · obtain ⟨path, query, eq, first⟩ := List.eq_append_cons_of_mem asked
    rw [if_pos (List.contains_iff_mem.mpr asked), eq, List.append_assoc, List.cons_append,
      Text.cut?_append first, Text.cut?_append first]
    exact fields_append query (beforeFragment pairs.toList)
  · rw [if_neg (mt List.contains_iff_mem.mp asked), Text.cut?_of_notMem asked]
    have found := Text.cut?_append asked (beforeFragment pairs.toList)
    simpa [beforeFragment] using congrArg (fun cut => (cut.map Prod.snd).elim [] fields) found

end Urls

/-- The declared query values arrive, behind the pairs of the filled template and in their order,
exactly if there is none, or the filled template has no fragment and the name of each of them stands
for itself. The values themselves are read back whatever they are. -/
theorem queryFields_build_iff (template : String) (parameters : List Parameter) (values : Values) :
    let filled := fillPath template parameters values
    let sent := sentValues parameters values
    queryFields (build template parameters values) = queryFields filled ++ sent.map meant ↔
      sent = [] ∨ '#' ∉ filled.toList ∧ ∀ entry ∈ sent, IsLiteral entry.1 := by
  intro filled sent
  have built : build template parameters values = appendQuery filled (sent.map pairText) := rfl
  rw [built, appendQuery]
  cases eq : sent with
  | nil => simp
  | cons entry rest =>
    have nonempty : ¬((entry :: rest).map pairText).isEmpty = true := by simp
    rw [if_neg nonempty, or_iff_right (List.cons_ne_nil entry rest)]
    by_cases fragment : '#' ∈ filled.toList
    · rw [String.append_assoc, queryFields_behind fragment, List.self_eq_append_right]
      exact ⟨fun h => absurd h (List.cons_ne_nil _ _), fun h => absurd fragment h.1⟩
    · rw [queryFields_append fragment, List.append_cancel_left_eq, fields_pairs_iff]
      exact (and_iff_right fragment).symm

/-- A template with a query and a fragment takes a value into its fragment, where no query is. -/
theorem value_behind_fragment :
    let template := "https://api.example.com/pets?page=1#top"
    let parameters : List Parameter := [⟨"limit", "query", false, "integer", ""⟩]
    let values : Values := [("limit", .text "5")]
    build template parameters values = "https://api.example.com/pets?page=1#top&limit=5" ∧
      queryFields (build template parameters values) ≠
        queryFields (fillPath template parameters values) ++
          (sentValues parameters values).map meant := by
  decide +kernel

end RequestWriter.Url
