import RequestWriter.Proofs.Json.Token

/-!
# Reading items between commas

Lists, objects and the blocks of a literal are all read by one function, which takes the reader of
the items as an argument. Its two laws are stated in the same way: one asks what the reader of items
does in front of anything that ends a token, the other asks what an item that was read looks like.
-/

namespace RequestWriter.Json

open Grammar

variable {α σ : Type} {item? : List Char → Option (α × List Char)} {close : Char}

@[simp] theorem commas_singleton (t : List Char) : commas [t] = t := by
  simp [commas, List.intercalate, List.intersperse]

theorem commas_cons_cons (t u : List Char) (ts : List (List Char)) :
    commas (t :: u :: ts) = t ++ ',' :: commas (u :: ts) := by
  simp [commas, List.intercalate, List.intersperse]

theorem commas_cons (t : List Char) (ts : List (List Char)) :
    commas (t :: ts) = t ++ ts.flatMap (',' :: ·) := by
  induction ts generalizing t with
  | nil => simp
  | cons u ts ih => rw [commas_cons_cons, ih, List.flatMap_cons, List.cons_append]

theorem mem_commas {t : List Char} {ts : List (List Char)} (mem : t ∈ ts) :
    ∀ c ∈ t, c ∈ commas ts := by
  intro c hc
  cases ts with
  | nil => cases mem
  | cons u ts =>
    rw [commas_cons]
    rcases List.mem_cons.mp mem with rfl | mem
    · exact List.mem_append_left _ hc
    · exact List.mem_append_right _
        (List.mem_flatMap.mpr ⟨t, mem, List.mem_cons_of_mem _ hc⟩)

/-- The text has a first character, which is neither a blank nor the end of a container. -/
def Begins (cs : List Char) : Prop :=
  ∃ c rest, cs = c :: rest ∧ isSpace c = false ∧ c ≠ ']' ∧ c ≠ '\x7d'

theorem Begins.append {t : List Char} (h : Begins t) (rest : List Char) : Begins (t ++ rest) := by
  obtain ⟨c, cs, rfl, front⟩ := h
  exact ⟨c, cs ++ rest, rfl, front⟩

theorem skipSpaces_of_begins {cs : List Char} (h : Begins cs) : skipSpaces cs = cs := by
  obtain ⟨c, rest, rfl, notBlank, -⟩ := h
  exact skipSpaces_cons notBlank rest

/-- The item is found behind the blanks in front of it, and what is left is what follows it, but
for blanks. -/
def Reads (item? : List Char → Option (α × List Char)) (chars : List Char) (v : α) : Prop :=
  ∀ rest, Ends rest → Begins (skipSpaces (chars ++ rest)) ∧
    ∃ rest', item? (skipSpaces (chars ++ rest)) = some (v, rest') ∧
      skipSpaces rest' = skipSpaces rest

/-- A reader that takes a token exactly also finds it between blanks. -/
theorem Reads.of_token {before t after : List Char} {v : α}
    (token : ∀ rest, Ends rest → item? (t ++ rest) = some (v, rest)) (front : Begins t)
    (hb : ∀ c ∈ before, isSpace c = true) (ha : ∀ c ∈ after, isSpace c = true) :
    Reads item? (before ++ t ++ after) v := by
  intro rest stop
  have start := front.append (after ++ rest)
  rw [List.append_assoc, List.append_assoc, skipSpaces_append hb, skipSpaces_of_begins start]
  exact ⟨start, after ++ rest, token _ (ends_append ha stop), skipSpaces_append ha rest⟩

theorem ends_cons {c : Char} (h : c = ',' ∨ c = ']' ∨ c = '\x7d' ∨ c = ';') (cs : List Char) :
    Ends (c :: cs) := by
  rw [Ends, starts_cons]
  exact .inr h

theorem ends_close (h : close = ']' ∨ close = '\x7d') (cs : List Char) : Ends (close :: cs) :=
  ends_cons (.inr (h.imp_right .inl)) cs

/-- One or more items are read up to the closing mark. -/
theorem sequence?_commas (hclose : close = ']' ∨ close = '\x7d')
    {parts : List (List Char × α)} (nonempty : parts ≠ [])
    (reads : ∀ p ∈ parts, Reads item? p.1 p.2) {tail : List Char}
    (ht : ∀ c ∈ tail, isSpace c = true) {bound : Nat} (enough : parts.length ≤ bound)
    (rest : List Char) :
    sequence? item? close bound
        (skipSpaces (commas (parts.map Prod.fst) ++ (tail ++ close :: rest))) =
      some (parts.map Prod.snd, rest) := by
  have notBlank : isSpace close = false := by
    rcases hclose with rfl | rfl <;> rfl
  induction parts generalizing bound with
  | nil => exact absurd rfl nonempty
  | cons p parts ih =>
    obtain ⟨bound, rfl⟩ : ∃ k, bound = k + 1 := ⟨bound - 1, by simp at enough; omega⟩
    have first := reads p List.mem_cons_self
    cases parts with
    | nil =>
      obtain ⟨-, rest', read, left⟩ := first (tail ++ close :: rest)
        (ends_append ht (ends_close hclose rest))
      rw [skipSpaces_append ht, skipSpaces_cons notBlank] at left
      simp only [List.map_cons, List.map_nil, commas_singleton]
      rw [sequence?, read]
      simp [left]
    | cons q parts =>
      obtain ⟨-, rest', read, left⟩ := first (',' :: (commas ((q :: parts).map Prod.fst) ++
        (tail ++ close :: rest))) (ends_cons (.inl rfl) _)
      have others := ih (by simp) (fun p hp => reads p (List.mem_cons_of_mem _ hp))
        (show (q :: parts).length ≤ bound by simp at enough ⊢; omega)
      rw [skipSpaces_cons rfl] at left
      have comma : ',' ≠ close := by
        rcases hclose with rfl | rfl <;> decide
      simp only [List.map_cons, commas_cons_cons, List.append_assoc, List.cons_append]
        at read left ⊢
      rw [sequence?, read]
      simp only [List.map_cons] at others
      simp [left, comma, others]

theorem begins_commas (hclose : close = ']' ∨ close = '\x7d') {parts : List (List Char × α)}
    (nonempty : parts ≠ []) (reads : ∀ p ∈ parts, Reads item? p.1 p.2) {tail : List Char}
    (ht : ∀ c ∈ tail, isSpace c = true) (rest : List Char) :
    Begins (skipSpaces (commas (parts.map Prod.fst) ++ (tail ++ close :: rest))) := by
  cases parts with
  | nil => exact absurd rfl nonempty
  | cons p parts =>
    have first := reads p List.mem_cons_self
    cases parts with
    | nil =>
      rw [List.map_singleton, commas_singleton]
      exact (first _ (ends_append ht (ends_close hclose rest))).1
    | cons q parts =>
      rw [List.map_cons, List.map_cons, commas_cons_cons, List.append_assoc, List.cons_append]
      exact (first _ (ends_cons (.inl rfl) _)).1

/-- Items between brackets are read up to the closing one. -/
theorem listBody?_commas {item? : List Char → Option (Value × List Char)}
    {parts : List (List Char × Value)} (nonempty : parts ≠ [])
    (reads : ∀ p ∈ parts, Reads item? p.1 p.2) {tail : List Char}
    (ht : ∀ c ∈ tail, isSpace c = true) {size : Nat} (enough : parts.length ≤ size)
    (rest : List Char) :
    listBody? size item? (commas (parts.map Prod.fst) ++ (tail ++ ']' :: rest)) =
      some (.list (parts.map Prod.snd), rest) := by
  have items := sequence?_commas (.inl rfl) nonempty reads ht enough rest
  obtain ⟨c, cs, front, -, notClose, -⟩ := begins_commas (.inl rfl) nonempty reads ht rest
  rw [front] at items
  unfold listBody?
  rw [front]
  split
  · next eq =>
    cases eq
    exact absurd rfl notClose
  · rw [items]
    rfl

/-- What is read between commas is a row of items. Here `σ` describes an item together with the
blanks around it. -/
theorem sequence?_sound (chars : σ → List Char) (value : σ → α) (Good : σ → Prop)
    (item : ∀ {cs rest : List Char} {v : α} (before after : Blanks),
      item? cs = some (v, rest) → ∃ s t, Good s ∧ value s = v ∧ cs = t ++ rest ∧
        chars s = before.1 ++ t ++ after.1)
    {bound : Nat} {cs rest : List Char} {vs : List α} (before : Blanks)
    (h : sequence? item? close bound cs = some (vs, rest)) :
    ∃ slots : List σ, slots ≠ [] ∧ (∀ s ∈ slots, Good s) ∧ slots.map value = vs ∧
      before ++ cs = commas (slots.map chars) ++ close :: rest := by
  induction bound generalizing cs vs before with
  | zero => simp [sequence?] at h
  | succ bound ih =>
    rw [sequence?, Option.bind_eq_some_iff] at h
    obtain ⟨⟨v, behind⟩, read, h⟩ := h
    obtain ⟨after, gap⟩ := exists_blanks behind
    obtain ⟨s, t, good, rfl, rfl, text⟩ := item before after read
    dsimp only at h
    split at h
    · cases h
    · next c more left =>
      rw [left] at gap
      split at h
      · next isClose =>
        cases h
        refine ⟨[s], by simp, by simpa using good, rfl, ?_⟩
        rw [gap, isClose]
        simp [text]
      · split at h
        · next isComma =>
          obtain ⟨⟨ws, rest'⟩, others, ends⟩ := Option.map_eq_some_iff.mp h
          cases ends
          obtain ⟨before', gap'⟩ := exists_blanks more
          obtain ⟨slots, nonempty, goods, rfl, texts⟩ := ih before' others
          obtain ⟨s', slots, rfl⟩ := List.exists_cons_of_ne_nil nonempty
          refine ⟨s :: s' :: slots, by simp, ?_, rfl, ?_⟩
          · intro u hu
            rcases List.mem_cons.mp hu with rfl | hu
            · exact good
            · exact goods u hu
          · rw [← gap'] at texts
            simp only [List.map_cons] at texts ⊢
            rw [gap, isComma, texts, commas_cons_cons, text]
            simp
        · cases h

end RequestWriter.Json
