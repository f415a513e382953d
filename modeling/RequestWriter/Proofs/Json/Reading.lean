import RequestWriter.Proofs.Json.Nesting
import RequestWriter.Proofs.Json.Number
import RequestWriter.Proofs.Entries

/-!
# Reading values

The reader of a value against the grammar. It is sound: what it takes from the front of a text is a
text of the grammar, and its value is the one that the grammar denotes. It is complete: a text of
the grammar in front of the end of a token is taken as a whole, as long as the text is nested less
deep than the levels that the reader has left.
-/

namespace RequestWriter.Json

open Grammar

section Sound

variable {item? : List Char → Option (Value × List Char)}

theorem listBody?_sound
    (item : ∀ {cs rest : List Char} {v : Value}, item? cs = some (v, rest) →
      ∃ t, cs = t ++ rest ∧ Denotes t v)
    {size : Nat} {cs rest : List Char} {v : Value} (h : listBody? size item? cs = some (v, rest)) :
    ∃ t, '[' :: cs = t ++ rest ∧ Denotes t v := by
  obtain ⟨before, gap⟩ := exists_blanks cs
  unfold listBody? at h
  split at h
  · next more empty =>
    cases h
    refine ⟨'[' :: before ++ [']'], ?_, .emptyList before⟩
    rw [gap, empty]
    simp
  · obtain ⟨⟨vs, rest'⟩, read, ends⟩ := Option.map_eq_some_iff.mp h
    cases ends
    obtain ⟨items, nonempty, good, rfl, texts⟩ := sequence?_sound Item.chars
      Item.value (fun i => Denotes i.text i.value) (fun before after read => by
        obtain ⟨t, split, denotes⟩ := item read
        exact ⟨⟨before, t, after, _⟩, t, denotes, rfl, split, rfl⟩) before read
    refine ⟨'[' :: commas (items.map Item.chars) ++ [']'], ?_, .list nonempty good⟩
    rw [gap, texts]
    simp

theorem member?_sound
    (item : ∀ {cs rest : List Char} {v : Value}, item? cs = some (v, rest) →
      ∃ t, cs = t ++ rest ∧ Denotes t v)
    {cs rest : List Char} {pair : Scalar × Value} (before after : Blanks)
    (h : member? item? cs = some (pair, rest)) :
    ∃ (m : Member) (t : List Char), (Chars m.name m.key ∧ Denotes m.text m.value) ∧
      Entries.ofText m.pair = pair ∧ cs = t ++ rest ∧ m.chars = before ++ t ++ after := by
  unfold member? at h
  split at h
  · next cs =>
    obtain ⟨⟨key, behind⟩, read, behindKey⟩ := Option.bind_eq_some_iff.mp h
    obtain ⟨name, rfl, chars⟩ := stringBody?_sound read
    obtain ⟨gap, gapEq⟩ := exists_blanks behind
    dsimp only at behindKey
    split at behindKey
    · next more colon =>
      obtain ⟨⟨v, rest'⟩, value, ends⟩ := Option.map_eq_some_iff.mp behindKey
      cases ends
      obtain ⟨gap', gapEq'⟩ := exists_blanks more
      obtain ⟨text, split, denotes⟩ := item value
      refine ⟨⟨before, name, key, gap, gap', text, after, v⟩,
        '"' :: name ++ '"' :: (gap ++ ':' :: (gap' ++ text)), ⟨chars, denotes⟩, rfl, ?_, ?_⟩
      · rw [gapEq, colon, gapEq', split]
        simp
      · simp [Member.chars]
    · cases behindKey
  · cases h

theorem objectBody?_sound
    (item : ∀ {cs rest : List Char} {v : Value}, item? cs = some (v, rest) →
      ∃ t, cs = t ++ rest ∧ Denotes t v)
    {size : Nat} {cs rest : List Char} {v : Value}
    (h : objectBody? size item? cs = some (v, rest)) :
    ∃ t, '\x7b' :: cs = t ++ rest ∧ Denotes t v := by
  obtain ⟨before, gap⟩ := exists_blanks cs
  unfold objectBody? at h
  split at h
  · next more empty =>
    cases h
    refine ⟨'\x7b' :: before ++ ['\x7d'], ?_, .emptyObject before⟩
    rw [gap, empty]
    simp
  · obtain ⟨⟨pairs, rest'⟩, read, ends⟩ := Option.map_eq_some_iff.mp h
    cases ends
    obtain ⟨members, nonempty, good, rfl, texts⟩ := sequence?_sound Member.chars
      (fun m => Entries.ofText m.pair) (fun m => Chars m.name m.key ∧ Denotes m.text m.value)
      (fun before after read => member?_sound item before after read) before read
    have pairs : members.map (fun m => Entries.ofText m.pair) =
        (members.map Member.pair).map Entries.ofText := by simp
    rw [pairs, Entries.mapping_ofPairs]
    refine ⟨'\x7b' :: commas (members.map Member.chars) ++ ['\x7d'], ?_,
      .object nonempty (fun m hm => (good m hm).1) fun m hm => (good m hm).2⟩
    rw [gap, texts]
    simp

/-- Whatever is read as a value is a text of the grammar with that value. -/
theorem value?_sound {size depth : Nat} {cs rest : List Char} {v : Value}
    (h : value? size depth cs = some (v, rest)) : ∃ t, cs = t ++ rest ∧ Denotes t v := by
  induction depth generalizing cs rest v with
  | zero => cases h
  | succ depth ih =>
    unfold value? at h
    split at h
    · obtain ⟨⟨s, rest'⟩, read, ends⟩ := Option.map_eq_some_iff.mp h
      cases ends
      obtain ⟨t, rfl, chars⟩ := stringBody?_sound read
      exact ⟨'"' :: t ++ ['"'], by simp, .string chars⟩
    · exact listBody?_sound ih h
    · exact objectBody?_sound ih h
    · cases h
      exact ⟨_, rfl, .null⟩
    · cases h
      exact ⟨_, rfl, .yes⟩
    · cases h
      exact ⟨_, rfl, .no⟩
    · obtain ⟨t, split, number⟩ := number?_sound h
      exact ⟨t, split, .number number⟩

end Sound

section Complete

theorem length_le_commas {ts : List (List Char)} {t : List Char} (h : t ∈ ts) :
    t.length ≤ (commas ts).length ∧ ts.length ≤ (commas ts).length + 1 := by
  induction ts generalizing t with
  | nil => cases h
  | cons u ts ih =>
    cases ts with
    | nil =>
      rcases List.mem_singleton.mp h with rfl
      simp
    | cons w ts =>
      have others := ih List.mem_cons_self
      rw [commas_cons_cons]
      simp only [List.length_append, List.length_cons] at others ⊢
      rcases List.mem_cons.mp h with rfl | h
      · omega
      · have := (ih h).1
        omega

theorem isSpace_of_digit {c : Char} (h : c.isDigit = true ∨ c = '-') : isSpace c = false := by
  cases blank : isSpace c with
  | false => rfl
  | true =>
    rcases isSpace_iff.mp blank with rfl | rfl | rfl | rfl <;> simp at h

/-- A number begins with a digit or a minus sign. -/
theorem number_front {t : List Char} {v : Value} (h : Number t v) :
    ∃ c cs, t = c :: cs ∧ (c.isDigit = true ∨ c = '-') := by
  have front : ∀ {sign whole : List Char} {negative : Bool} (rest : List Char),
      Minus sign negative → Whole whole →
      ∃ c cs, sign ++ whole ++ rest = c :: cs ∧ (c.isDigit = true ∨ c = '-') := by
    rintro _ _ _ rest (_ | _) (_ | ⟨first, _, _⟩)
    · exact ⟨_, _, rfl, .inl rfl⟩
    · exact ⟨_, _, rfl, .inl first⟩
    · exact ⟨_, _, rfl, .inr rfl⟩
    · exact ⟨_, _, rfl, .inr rfl⟩
  cases h with
  | integer sgn int => simpa using front [] sgn int
  | @float _ _ frac _ exp _ _ sgn int => simpa using front (frac ++ exp) sgn int

/-- A value begins with a character that is neither a blank nor the end of a container. -/
theorem begins_denotes {t : List Char} {v : Value} (h : Denotes t v) : Begins t := by
  cases h with
  | number h =>
    obtain ⟨c, cs, rfl, front⟩ := number_front h
    refine ⟨c, cs, rfl, isSpace_of_digit front, ?_, ?_⟩ <;> (rintro rfl; simp at front)
  | _ => exact ⟨_, _, rfl, rfl, by decide, by decide⟩

theorem value?_number {size depth : Nat} {c : Char} {cs : List Char}
    (front : c.isDigit = true ∨ c = '-') :
    value? size (depth + 1) (c :: cs) = number? (c :: cs) := by
  unfold value?
  split
  case h_7 => rfl
  all_goals
    next eq =>
      cases eq
      simp at front

/-- A member is read up to the end of its value. -/
theorem reads_member {item? : List Char → Option (Value × List Char)} {m : Member}
    (key : Chars m.name m.key) (front : Begins m.text)
    (value : ∀ rest, Ends rest → item? (m.text ++ rest) = some (m.value, rest)) :
    Reads (member? item?) m.chars (Entries.ofText m.pair) := by
  refine Reads.of_token (fun rest stop => ?_) ⟨'"', _, rfl, rfl, by decide, by decide⟩
    (fun c hc => isSpace_of_mem hc) (fun c hc => isSpace_of_mem hc)
  have shape : '"' :: m.name ++ '"' :: (m.gap.1 ++ ':' :: (m.gap'.1 ++ m.text)) ++ rest =
      '"' :: (m.name ++ '"' :: (m.gap.1 ++ ':' :: (m.gap'.1 ++ (m.text ++ rest)))) := by simp
  have colon : skipSpaces (m.gap.1 ++ ':' :: (m.gap'.1 ++ (m.text ++ rest))) =
      ':' :: (m.gap'.1 ++ (m.text ++ rest)) := by
    rw [skipSpaces_blanks, skipSpaces_cons rfl]
  have start : skipSpaces (m.gap'.1 ++ (m.text ++ rest)) = m.text ++ rest := by
    rw [skipSpaces_blanks, skipSpaces_of_begins (front.append rest)]
  rw [shape, member?, stringBody?_append key]
  simp only [Option.bind_some, colon, start, value rest stop]
  rfl

/-- Members between braces are read up to the closing one. -/
theorem objectBody?_commas {item? : List Char → Option (Value × List Char)}
    {members : List Member} (nonempty : members ≠ [])
    (reads : ∀ m ∈ members, Reads (member? item?) m.chars (Entries.ofText m.pair))
    {size : Nat} (enough : members.length ≤ size) (rest : List Char) :
    objectBody? size item? (commas (members.map Member.chars) ++ '\x7d' :: rest) =
      some (assigned (members.map Member.pair), rest) := by
  have parts : ∀ p ∈ members.map fun m => (m.chars, Entries.ofText m.pair),
      Reads (member? item?) p.1 p.2 := by
    intro p hp
    obtain ⟨m, hm, rfl⟩ := List.mem_map.mp hp
    exact reads m hm
  have entries := sequence?_commas (.inr rfl) (by simpa using nonempty) parts
    (List.forall_mem_nil _) (by simpa using enough) rest
  obtain ⟨c, cs, front, -, -, notClose⟩ := begins_commas (.inr rfl)
    (by simpa using nonempty) parts (List.forall_mem_nil _) rest
  simp only [List.map_map, List.nil_append] at entries front
  have texts : (Prod.fst ∘ fun m => (m.chars, Entries.ofText m.pair)) = Member.chars := rfl
  have values : List.map (Prod.snd ∘ fun m => (m.chars, Entries.ofText m.pair)) members =
      (members.map Member.pair).map Entries.ofText := by simp
  rw [texts] at entries front
  rw [front, values] at entries
  unfold objectBody?
  rw [front]
  split
  · next eq =>
    cases eq
    exact absurd rfl notClose
  · rw [entries, ← Entries.mapping_ofPairs]
    rfl

/-- An item is shorter than its list and nested less deep. -/
theorem item_lt {items : List Item} (balanced : ∀ i ∈ items, Balanced i.text) {i : Item}
    (hi : i ∈ items) :
    nesting i.text < nesting ('[' :: commas (items.map Item.chars) ++ [']']) ∧
      i.text.length < ('[' :: commas (items.map Item.chars) ++ [']']).length := by
  have parts : ∀ t ∈ items.map Item.chars, Balanced t := by
    intro t ht
    obtain ⟨j, hj, rfl⟩ := List.mem_map.mp ht
    exact (Balanced.item (balanced j hj)).1
  have mem : i.chars ∈ items.map Item.chars := List.mem_map_of_mem hi
  obtain ⟨body, bound⟩ := Balanced.commas parts
  have inItem := (Balanced.item (balanced i hi)).2
  have inBody := bound i.chars mem
  have inText := (length_le_commas mem).1
  rw [(Balanced.bracket (.inl ⟨rfl, rfl⟩) body).2]
  simp only [Item.chars, List.length_append, List.length_cons, List.length_nil] at inText ⊢
  omega

/-- The value of a member is shorter than the object and nested less deep. -/
theorem member_lt {members : List Member} (keys : ∀ m ∈ members, Chars m.name m.key)
    (balanced : ∀ m ∈ members, Balanced m.text) {m : Member} (hm : m ∈ members) :
    nesting m.text < nesting ('\x7b' :: commas (members.map Member.chars) ++ ['\x7d']) ∧
      m.text.length < ('\x7b' :: commas (members.map Member.chars) ++ ['\x7d']).length := by
  have parts : ∀ t ∈ members.map Member.chars, Balanced t := by
    intro t ht
    obtain ⟨j, hj, rfl⟩ := List.mem_map.mp ht
    exact (Balanced.member (keys j hj) (balanced j hj)).1
  have mem : m.chars ∈ members.map Member.chars := List.mem_map_of_mem hm
  obtain ⟨body, bound⟩ := Balanced.commas parts
  have inMember := (Balanced.member (keys m hm) (balanced m hm)).2
  have inBody := bound m.chars mem
  have inText := (length_le_commas mem).1
  rw [(Balanced.bracket (.inr ⟨rfl, rfl⟩) body).2]
  simp only [Member.chars, List.length_append, List.length_cons, List.length_nil] at inText ⊢
  omega

/-- A text of the grammar is read as a whole where a token ends. -/
theorem value?_append {t : List Char} {v : Value} (h : Denotes t v) {size depth : Nat}
    (enough : t.length ≤ size) (levels : nesting t < depth) {rest : List Char} (stop : Ends rest) :
    value? size depth (t ++ rest) = some (v, rest) := by
  induction h generalizing depth rest with
  | null | yes | no =>
    obtain ⟨depth, rfl⟩ : ∃ k, depth = k + 1 := ⟨depth - 1, by omega⟩
    rfl
  | number h =>
    obtain ⟨depth, rfl⟩ : ∃ k, depth = k + 1 := ⟨depth - 1, by omega⟩
    obtain ⟨c, cs, rfl, front⟩ := number_front h
    rw [List.cons_append, value?_number front, ← List.cons_append]
    exact number?_append h stop
  | string h =>
    obtain ⟨depth, rfl⟩ : ∃ k, depth = k + 1 := ⟨depth - 1, by omega⟩
    simp [value?, stringBody?_append h]
  | emptyList b =>
    obtain ⟨depth, rfl⟩ : ∃ k, depth = k + 1 := ⟨depth - 1, by omega⟩
    have close : skipSpaces (b.1 ++ ']' :: rest) = ']' :: rest := by
      rw [skipSpaces_blanks, skipSpaces_cons rfl]
    simp [value?, listBody?, close]
  | @list items nonempty values ih =>
    obtain ⟨depth, rfl⟩ : ∃ k, depth = k + 1 := ⟨depth - 1, by omega⟩
    have reads : ∀ p ∈ items.map fun i => (i.chars, i.value),
        Reads (value? size depth) p.1 p.2 := by
      intro p hp
      obtain ⟨i, hi, rfl⟩ := List.mem_map.mp hp
      obtain ⟨shallower, shorter⟩ := item_lt (fun i hi => .of_denotes (values i hi)) hi
      exact Reads.of_token (fun rest stop => ih i hi (by omega) (by omega) stop)
        (begins_denotes (values i hi)) (fun c hc => isSpace_of_mem hc)
        (fun c hc => isSpace_of_mem hc)
    obtain ⟨i, hi⟩ := List.exists_mem_of_ne_nil items nonempty
    have count := (length_le_commas (List.mem_map_of_mem (f := Item.chars) hi)).2
    have body := listBody?_commas (by simpa using nonempty) reads (List.forall_mem_nil _)
      (show _ ≤ size by simp at count enough ⊢; omega) rest
    have texts : (Prod.fst ∘ fun i : Item => (i.chars, i.value)) = Item.chars := rfl
    have values : (Prod.snd ∘ fun i : Item => (i.chars, i.value)) = Item.value := rfl
    rw [List.map_map, List.map_map, texts, values, List.nil_append] at body
    rw [List.append_assoc, List.cons_append, List.singleton_append]
    simpa [value?] using body
  | emptyObject b =>
    obtain ⟨depth, rfl⟩ : ∃ k, depth = k + 1 := ⟨depth - 1, by omega⟩
    have close : skipSpaces (b.1 ++ '\x7d' :: rest) = '\x7d' :: rest := by
      rw [skipSpaces_blanks, skipSpaces_cons rfl]
    simp [value?, objectBody?, close]
  | @object members nonempty keys values ih =>
    obtain ⟨depth, rfl⟩ : ∃ k, depth = k + 1 := ⟨depth - 1, by omega⟩
    have reads : ∀ m ∈ members,
        Reads (member? (value? size depth)) m.chars (Entries.ofText m.pair) := by
      intro m hm
      obtain ⟨shallower, shorter⟩ := member_lt keys (fun m hm => .of_denotes (values m hm)) hm
      exact reads_member (keys m hm) (begins_denotes (values m hm))
        fun rest stop => ih m hm (by omega) (by omega) stop
    obtain ⟨m, hm⟩ := List.exists_mem_of_ne_nil members nonempty
    have count := (length_le_commas (List.mem_map_of_mem (f := Member.chars) hm)).2
    have body := objectBody?_commas nonempty reads
      (show _ ≤ size by simp at count enough ⊢; omega) rest
    rw [List.append_assoc, List.cons_append, List.singleton_append]
    simpa [value?] using body

end Complete

end RequestWriter.Json
