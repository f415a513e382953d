import RequestWriter.Proofs.Json.Denoted
import RequestWriter.Proofs.Decimal.Spelling
import RequestWriter.Body

/-!
# Compact texts read back

The compact text of a JSON value is read as that value. Strings are escaped only where the grammar
asks for it, numbers are spelled with their value, and a mapping whose keys stand there once is what
its members assign. So a body that is written anew on a command line stands for the same value.
-/

namespace RequestWriter.Json

open Grammar

section Strings

theorem hexDigit_digitChar {k : Nat} (h : k < 16) : HexDigit k.digitChar k := by
  have all : ∀ k < 16, HexDigit k.digitChar k := by
    simp only [hexDigit_iff]
    decide
  exact all k h

theorem codeUnit_hexDigits {n : Nat} (h : n < 0x10000) : CodeUnit (Text.hexDigits 4 n) n := by
  have unit := CodeUnit.mk (hexDigit_digitChar (k := n / 16 / 16 / 16 % 16) (by omega))
    (hexDigit_digitChar (k := n / 16 / 16 % 16) (by omega))
    (hexDigit_digitChar (k := n / 16 % 16) (by omega))
    (hexDigit_digitChar (k := n % 16) (by omega))
  have value : ((n / 16 / 16 / 16 % 16 * 16 + n / 16 / 16 % 16) * 16 + n / 16 % 16) * 16 + n % 16 =
      n := by omega
  rwa [value] at unit

/-- What a character becomes inside a string stands for that character. -/
theorem chars_stringChar (c : Char) {t s : List Char} (rest : Chars t s) :
    Chars (stringChar false c ++ t) (c :: s) := by
  unfold stringChar
  split_ifs with quote backslash newline carriageReturn tab backspace formFeed low wide
  · subst quote
    exact .escape .quote rest
  · subst backslash
    exact .escape .backslash rest
  · subst newline
    exact .escape .newline rest
  · subst carriageReturn
    exact .escape .carriageReturn rest
  · subst tab
    exact .escape .tab rest
  · subst backspace
    exact .escape .backspace rest
  · subst formFeed
    exact .escape .formFeed rest
  · have unit := Chars.unit (codeUnit_hexDigits (n := c.toNat) (by omega)) (.inl (by omega)) rest
    rwa [Char.ofNat_toNat] at unit
  · simp at wide
  · exact .plain (by omega) quote backslash rest

theorem chars_string (s : List Char) : Chars (s.flatMap (stringChar false)) s := by
  induction s with
  | nil => exact .nil
  | cons c s ih => exact chars_stringChar c ih

end Strings

section Values

variable {size depth : Nat}

theorem toList_join_comma (texts : List String) :
    (Text.join "," texts).toList = commas (texts.map String.toList) := by
  induction texts with
  | nil => rfl
  | cons s texts ih =>
    cases texts with
    | nil => simp
    | cons t texts =>
      simp only [List.map_cons] at ih ⊢
      rw [Text.join_cons_cons, commas_cons_cons, ← ih]
      simp

theorem compactItems_eq (items : List Value) : compactItems items = items.map compact := by
  induction items with
  | nil => rfl
  | cons v items ih => rw [compactItems, ih, List.map_cons]

theorem compactMembers_eq (entries : List (Scalar × Value)) :
    compactMembers entries = entries.map fun e => key false e.1 ++ ":" ++ compact e.2 := by
  induction entries with
  | nil => rfl
  | cons entry entries ih => rw [compactMembers, ih, List.map_cons]

theorem toList_string (s : String) :
    (string false s).toList = '"' :: (s.toList.flatMap (stringChar false) ++ ['"']) := by
  simp [string]

theorem toList_compact_list (items : List Value) :
    (compact (.list items)).toList =
      '[' :: (commas (items.map fun v => (compact v).toList) ++ [']']) := by
  rw [compact, compactItems_eq]
  simp [toList_join_comma, Function.comp_def]

theorem toList_compact_mapping (entries : List (Scalar × Value)) :
    (compact (.mapping entries)).toList =
      '\x7b' :: (commas (entries.map fun e => (key false e.1 ++ ":" ++ compact e.2).toList) ++
        ['\x7d']) := by
  rw [compact, compactMembers_eq]
  simp [toList_join_comma, Function.comp_def]

/-- The reader takes the text as a whole where a token ends, with so many levels left. -/
def Restores (depth : Nat) (text : String) (v : Value) : Prop :=
  Begins text.toList ∧ ∀ (size : Nat) {rest : List Char}, text.toList.length ≤ size → Ends rest →
    value? size depth (text.toList ++ rest) = some (v, rest)

theorem restores_scalar {s : Scalar} (h : s.IsJson) (depth : Nat) :
    Restores (depth + 1) (scalar false s) (.scalar s) := by
  have number : ∀ {text : String} {v : Value}, Number text.toList v →
      Restores (depth + 1) text v := by
    intro text v h
    refine ⟨begins_denotes (.number h), fun size rest _ stop => ?_⟩
    obtain ⟨c, cs, eq, front⟩ := number_front h
    have read := number?_append h stop
    rw [eq, List.cons_append] at read ⊢
    rw [value?_number front, read]
  cases s with
  | null => exact ⟨⟨'n', _, rfl, rfl, by decide, by decide⟩, fun _ _ _ _ => rfl⟩
  | bool b =>
    cases b
    · exact ⟨⟨'f', _, rfl, rfl, by decide, by decide⟩, fun _ _ _ _ => rfl⟩
    · exact ⟨⟨'t', _, rfl, rfl, by decide, by decide⟩, fun _ _ _ _ => rfl⟩
  | int i => exact number (number_toString h)
  | float d => exact number (Decimal.number_write h)
  | text s =>
    have text : (scalar false (.text s)).toList =
        '"' :: (s.toList.flatMap (stringChar false) ++ ['"']) := toList_string s
    refine ⟨⟨'"', _, text, rfl, by decide, by decide⟩, fun size rest _ _ => ?_⟩
    rw [text]
    simp [value?, stringBody?_append (chars_string s.toList), Value.text]
  | _ => exact absurd h id

theorem restores_list {items : List Value} (parts : ∀ v ∈ items, Restores depth (compact v) v) :
    Restores (depth + 1) (compact (.list items)) (.list items) := by
  have text := toList_compact_list items
  refine ⟨⟨'[', _, text, rfl, by decide, by decide⟩, fun size rest enough _ => ?_⟩
  rw [text] at enough ⊢
  simp only [List.length_cons, List.length_append] at enough
  by_cases empty : items = []
  · subst empty
    rfl
  · have reads : ∀ p ∈ items.map fun v => ((compact v).toList, v),
        Reads (value? size depth) p.1 p.2 := by
      intro p hp
      obtain ⟨v, mem, rfl⟩ := List.mem_map.mp hp
      obtain ⟨front, token⟩ := parts v mem
      have shorter := (length_le_commas
        (List.mem_map_of_mem (f := fun v => (compact v).toList) mem)).1
      simpa using Reads.of_token (fun rest stop => token size (by omega) stop) front
        (List.forall_mem_nil _) (List.forall_mem_nil _)
    obtain ⟨v, mem⟩ := List.exists_mem_of_ne_nil items empty
    have count := (length_le_commas
      (List.mem_map_of_mem (f := fun v => (compact v).toList) mem)).2
    rw [List.length_map] at count
    have body := listBody?_commas (by simpa using empty) reads (List.forall_mem_nil _)
      (show _ ≤ size by simp; omega) rest
    simpa [value?, Function.comp_def] using body

/-- The member that an entry is written as. -/
def member (entry : Scalar × Value) : Member where
  before := ⟨[], by simp⟩
  name := entry.1.display.toList.flatMap (stringChar false)
  key := entry.1.display.toList
  gap := ⟨[], by simp⟩
  gap' := ⟨[], by simp⟩
  text := (compact entry.2).toList
  after := ⟨[], by simp⟩
  value := entry.2

/-- The members of a mapping whose keys stand there once assign that mapping. -/
theorem assigned_member {entries : List (Scalar × Value)}
    (keys : ∀ entry ∈ entries, ∃ s, entry.1 = .text s) (nodup : (entries.map Prod.fst).Nodup) :
    assigned ((entries.map member).map Member.pair) = .mapping entries := by
  have same : ((entries.map member).map Member.pair).map Entries.ofText = entries := by
    rw [List.map_map, List.map_map]
    conv_rhs => rw [← List.map_id entries]
    refine List.map_congr_left fun entry mem => ?_
    obtain ⟨s, isText⟩ := keys entry mem
    obtain ⟨k, v⟩ := entry
    cases isText
    simp [Entries.ofText, Member.pair, member, Scalar.display]
  rw [← Entries.mapping_ofPairs, same, Entries.ofPairs_of_texts keys nodup]

theorem restores_mapping {entries : List (Scalar × Value)}
    (keys : ∀ entry ∈ entries, ∃ s, entry.1 = .text s) (nodup : (entries.map Prod.fst).Nodup)
    (parts : ∀ entry ∈ entries, Restores depth (compact entry.2) entry.2) :
    Restores (depth + 1) (compact (.mapping entries)) (.mapping entries) := by
  have chars : entries.map (fun e => (key false e.1 ++ ":" ++ compact e.2).toList) =
      (entries.map member).map Member.chars := by
    rw [List.map_map]
    refine List.map_congr_left fun entry mem => ?_
    obtain ⟨s, isText⟩ := keys entry mem
    simp [Member.chars, member, isText, key, string, Scalar.display]
  have text : (compact (.mapping entries)).toList =
      '\x7b' :: (commas ((entries.map member).map Member.chars) ++ ['\x7d']) := by
    rw [toList_compact_mapping, chars]
  refine ⟨⟨'\x7b', _, text, rfl, by decide, by decide⟩, fun size rest enough _ => ?_⟩
  rw [text] at enough ⊢
  simp only [List.length_cons, List.length_append] at enough
  by_cases empty : entries = []
  · subst empty
    rfl
  · have reads : ∀ m ∈ entries.map member,
        Reads (member? (value? size depth)) m.chars (Entries.ofText m.pair) := by
      intro m hm
      obtain ⟨entry, mem, rfl⟩ := List.mem_map.mp hm
      obtain ⟨front, token⟩ := parts entry mem
      have shorter := (length_le_commas (List.mem_map_of_mem (f := Member.chars) hm)).1
      have inside : (compact entry.2).toList.length ≤ (member entry).chars.length := by
        simp [Member.chars, member]
        omega
      exact reads_member (chars_string _) front fun rest stop => token size (by omega) stop
    obtain ⟨entry, mem⟩ := List.exists_mem_of_ne_nil entries empty
    have count := (length_le_commas (List.mem_map_of_mem (f := Member.chars)
      (List.mem_map_of_mem (f := member) mem))).2
    rw [List.length_map, List.length_map] at count
    have body := objectBody?_commas (by simpa using empty) reads
      (show _ ≤ size by simp; omega) rest
    rw [assigned_member keys nodup] at body
    simpa [value?] using body

/-- The compact text of a value is read as that value, if the reader goes deep enough. -/
theorem restores_compact {v : Value} (built : v.Built Scalar.IsJson) (distinct : v.DistinctKeys)
    {depth : Nat} (nested : v.NestedWithin (depth - 1)) : Restores depth (compact v) v := by
  induction built generalizing depth with
  | scalar h =>
    obtain ⟨depth, rfl⟩ : ∃ k, depth = k + 1 := ⟨depth - 1, by have := nested.nonneg; omega⟩
    exact restores_scalar h depth
  | list _ ih =>
    obtain ⟨depth, rfl⟩ : ∃ k, depth = k + 1 := ⟨depth - 1, by have := nested.nonneg; omega⟩
    refine restores_list fun v mem => ih v mem (distinct.item mem) ?_
    have := nested.item mem
    rwa [show ((depth + 1 : Nat) : Int) - 1 - 1 = depth - 1 by omega] at this
  | mapping keys _ ih =>
    obtain ⟨depth, rfl⟩ : ∃ k, depth = k + 1 := ⟨depth - 1, by have := nested.nonneg; omega⟩
    refine restores_mapping keys distinct.nodup fun entry mem =>
      ih entry mem (distinct.entry mem) ?_
    have := nested.entry mem
    rwa [show ((depth + 1 : Nat) : Int) - 1 - 1 = depth - 1 by omega] at this

end Values

end RequestWriter.Json

namespace RequestWriter.Body

/-- A body that is written anew is a JSON text for the same value. -/
theorem value?_compact {body : String} {v : Value} (h : value? body = some v) :
    value? (compact body) = some v := by
  obtain ⟨built, distinct, nested⟩ := value?_spec h
  obtain ⟨front, read⟩ := Json.restores_compact built distinct nested
  have text : compact body = Json.compact v := by
    rw [compact, h]
  have whole := read ((Json.compact v).toList.length + 1) (by omega) (Json.starts_nil _)
  rw [List.append_nil] at whole
  rw [text, value?, Json.read?, Json.skipSpaces_of_begins front]
  simp [whole]

end RequestWriter.Body
