import RequestWriter.Yaml.Load
import RequestWriter.Proofs.Json.Grammar

/-!
# Nodes of flow collections

The tokens of scalars and flow collections in relation to the value that they spell, and the node
that is read from them. A node is numbered by the tokens that are left behind its first one, so the
numbers of containers fall from the outside to the inside; `Stands` keeps this beside the value. The
two bounds of the reader, on the parts of a container and on the nesting, are both met by the number
of tokens, since every part and every level takes one.
-/

namespace RequestWriter.Yaml.Node

open Json.Grammar (assigned)

/-- Tokens with commas between them. -/
def listed : List (List Token) → List Token
  | [] => []
  | ts :: rest => ts ++ rest.flatMap (Token.flowEntry :: ·)

/-- A key with the tokens of its value. -/
structure Pair where
  key : String
  tokens : List Token
  value : Value

/-- The tokens of a key and its value. -/
def Pair.spelling (p : Pair) : List Token :=
  .key :: .scalar p.key false :: .value :: p.tokens

/-- The assignment that a key and its value stand for. -/
def Pair.assignment (p : Pair) : String × Value := (p.key, p.value)

/-- Tokens of scalars and flow collections, and the value that they spell. -/
inductive Spells : List Token → Value → Prop
  | scalar {text : String} {plain : Bool} {s : Scalar}
      (h : (Reader.scalarTag plain text none).value text = .ok s) :
      Spells [.scalar text plain] (.scalar s)
  | list {parts : List (List Token × Value)} (h : ∀ p ∈ parts, Spells p.1 p.2) :
      Spells (.flowSequenceStart :: listed (parts.map Prod.fst) ++ [.flowSequenceEnd])
        (.list (parts.map Prod.snd))
  | object {pairs : List Pair} (h : ∀ p ∈ pairs, Spells p.tokens p.value) :
      Spells (.flowMappingStart :: listed (pairs.map Pair.spelling) ++ [.flowMappingEnd])
        (assigned (pairs.map Pair.assignment))

/-- The node stands for the value, and its containers have numbers below this one. -/
inductive Stands : Nat → Node → Value → Prop
  | scalar {high : Nat} {tag : Tag} {text : String} {s : Scalar} (h : tag.value text = .ok s) :
      Stands high (.scalar tag text) (.scalar s)
  | sequence {high id : Nat} {parts : List (Node × Value)} (below : id < high)
      (h : ∀ p ∈ parts, Stands id p.1 p.2) :
      Stands high (.sequence id .sequence (parts.map Prod.fst)) (.list (parts.map Prod.snd))
  | mapping {high id : Nat} {parts : List (String × Node × Value)} (below : id < high)
      (h : ∀ p ∈ parts, Stands id p.2.1 p.2.2) :
      Stands high (.mapping id .mapping (parts.map fun p => (.scalar .text p.1, p.2.1)))
        (assigned (parts.map fun p => (p.1, p.2.2)))

theorem Stands.mono {low high : Nat} {n : Node} {v : Value} (h : Stands low n v)
    (le : low ≤ high) : Stands high n v := by
  cases h with
  | scalar h => exact .scalar h
  | sequence below h => exact .sequence (Nat.lt_of_lt_of_le below le) h
  | mapping below h => exact .mapping (Nat.lt_of_lt_of_le below le) h

namespace Reader

variable {α β : Type} {t u : Token} {ts rest : List Token} {a : List (String × Anchor)}
  {h : List (String × String)}

theorem bind_ok {x : Reader α} {f : α → Reader β} {s s' : State} {r : α}
    (read : x s = .ok (r, s')) : (x >>= f) s = f r s' := by
  change (x s >>= fun p => f p.1 p.2) = _
  rw [read]
  rfl

theorem peek_bind {f : Token → Reader β} : (peek >>= f) ⟨t :: ts, a, h⟩ = f t ⟨t :: ts, a, h⟩ := rfl

theorem accept_same : accept t ⟨t :: ts, a, h⟩ = .ok (true, ⟨ts, a, h⟩) := by
  rw [accept, peek_bind, if_pos rfl]
  rfl

theorem accept_other (other : u ≠ t) : accept t ⟨u :: ts, a, h⟩ = .ok (false, ⟨u :: ts, a, h⟩) := by
  rw [accept, peek_bind, if_neg other]
  rfl

theorem expect_same : expect t ⟨t :: ts, a, h⟩ = .ok ((), ⟨ts, a, h⟩) := by
  rw [expect, peek_bind, if_pos rfl]
  rfl

theorem nodeUnless_other {ends : List Token} {node : Reader Node} (other : t ∉ ends) :
    nodeUnless ends node ⟨t :: ts, a, h⟩ = node ⟨t :: ts, a, h⟩ := by
  rw [nodeUnless, peek_bind, if_neg (by simpa using other)]

/-- A token with which a scalar or a flow collection begins. -/
def Opens (t : Token) : Prop :=
  (∃ text plain, t = .scalar text plain) ∨ t = .flowSequenceStart ∨ t = .flowMappingStart

/-- A node without anchor and tag is its content. -/
theorem node_of_opens (opens : Opens t) (size depth : Nat) (block flush : Bool) :
    node size (depth + 1) block flush ⟨t :: ts, a, h⟩ =
      content size (node size depth) block flush none none ⟨t :: ts, a, h⟩ := by
  have behind : ∀ {x : Reader Node} {s : State},
      (do
        let result ← x
        bind none (.complete result)
        return result : Reader Node) s = x s := by
    intro x s
    cases read : x s with
    | error stop =>
      change (x s >>= _) = _
      rw [read]
      rfl
    | ok p =>
      rw [bind_ok read]
      rfl
  have noProperties : properties ⟨t :: ts, a, h⟩ = .ok ((none, none), ⟨t :: ts, a, h⟩) := by
    rcases opens with ⟨text, plain, rfl⟩ | rfl | rfl <;> rfl
  have start : node size (depth + 1) block flush ⟨t :: ts, a, h⟩ =
      (properties >>= fun p => (do
        checkFresh p.1
        let result ← content size (node size depth) block flush p.1 p.2
        bind p.1 (.complete result)
        return result : Reader Node)) ⟨t :: ts, a, h⟩ := by
    rw [node, peek_bind]
    rcases opens with ⟨text, plain, rfl⟩ | rfl | rfl <;> rfl
  rw [start, bind_ok noProperties]
  exact behind

theorem content_scalar (text : String) (plain : Bool) (size : Nat)
    (node : Bool → Bool → Reader Node) (block flush : Bool) :
    content size node block flush none none ⟨.scalar text plain :: ts, a, h⟩ =
      .ok (.scalar (scalarTag plain text none) text, ⟨ts, a, h⟩) := rfl

theorem content_sequence (size : Nat) (node : Bool → Bool → Reader Node) (block flush : Bool) :
    content size node block flush none none ⟨.flowSequenceStart :: ts, a, h⟩ =
      (do
        let items ← flowParts (flowItem (node false false)) .flowSequenceEnd true size
        return .sequence (ts.length + 1) .sequence items : Reader Node) ⟨ts, a, h⟩ := rfl

theorem content_mapping (size : Nat) (node : Bool → Bool → Reader Node) (block flush : Bool) :
    content size node block flush none none ⟨.flowMappingStart :: ts, a, h⟩ =
      (do
        let pairs ← flowParts (flowPair (node false false)) .flowMappingEnd true size
        return .mapping (ts.length + 1) .mapping pairs : Reader Node) ⟨ts, a, h⟩ := rfl

section Parts

variable {σ : Type} {part : Reader α} {close : Token} {tokens : σ → List Token}
  {Good : σ → α → Prop} {parts : List σ} {id : Nat}

/-- In front of fewer tokens than a number, the reader of parts takes the tokens of each of these
parts, which do not begin with the closing mark. -/
def ReadsParts (part : Reader α) (close : Token) (tokens : σ → List Token) (Good : σ → α → Prop)
    (id : Nat) (a : List (String × Anchor)) (h : List (String × String)) (s : σ) : Prop :=
  (∃ t ts, tokens s = t :: ts ∧ t ≠ close) ∧ ∀ rest, (tokens s ++ rest).length < id →
    ∃ x, part ⟨tokens s ++ rest, a, h⟩ = .ok (x, ⟨rest, a, h⟩) ∧ Good s x

/-- A part behind the comma, or the first one, and the parts behind it. -/
theorem flowParts_part (first : Bool) {s : σ} {bound : Nat}
    (read : ReadsParts part close tokens Good id a h s) {xs : List α} {more end_ : List Token}
    (short : (tokens s ++ more).length < id)
    (others : flowParts part close false bound ⟨more, a, h⟩ = .ok (xs, ⟨end_, a, h⟩))
    (noComma : close ≠ .flowEntry) :
    ∃ x, Good s x ∧ flowParts part close first (bound + 1)
      ⟨(if first then [] else [.flowEntry]) ++ (tokens s ++ more), a, h⟩ =
        .ok (x :: xs, ⟨end_, a, h⟩) := by
  obtain ⟨⟨t, ts, front, notClose⟩, reads⟩ := read
  obtain ⟨x, readPart, good⟩ := reads more short
  refine ⟨x, good, ?_⟩
  have other : accept close ⟨tokens s ++ more, a, h⟩ = .ok (false, ⟨tokens s ++ more, a, h⟩) := by
    rw [front]
    exact accept_other notClose
  have behind : (do
      if ← accept close then return []
      else
        let head ← part
        return head :: (← flowParts part close false bound) : Reader (List α))
      ⟨tokens s ++ more, a, h⟩ = .ok (x :: xs, ⟨end_, a, h⟩) := by
    rw [bind_ok other, if_neg (by decide), bind_ok readPart, bind_ok others]
    rfl
  cases first with
  | true =>
    rw [flowParts]
    simp only [if_true, List.nil_append]
    rw [bind_ok other, if_neg (by decide)]
    exact behind
  | false =>
    rw [flowParts]
    simp only [List.cons_append, List.nil_append, Bool.false_eq_true, if_false]
    rw [bind_ok (accept_other noComma.symm), if_neg (by decide), bind_ok expect_same]
    exact behind

/-- The parts that are left, each behind its comma. -/
theorem flowParts_rest (noComma : close ≠ .flowEntry)
    (reads : ∀ s ∈ parts, ReadsParts part close tokens Good id a h s) {bound : Nat}
    (enough : parts.length < bound) {rest : List Token}
    (short : (parts.flatMap (Token.flowEntry :: tokens ·) ++ close :: rest).length ≤ id) :
    ∃ rs : List (σ × α), rs.map Prod.fst = parts ∧ (∀ r ∈ rs, Good r.1 r.2) ∧
      flowParts part close false bound
        ⟨parts.flatMap (Token.flowEntry :: tokens ·) ++ close :: rest, a, h⟩ =
          .ok (rs.map Prod.snd, ⟨rest, a, h⟩) := by
  induction parts generalizing bound with
  | nil =>
    obtain ⟨bound, rfl⟩ : ∃ k, bound = k + 1 := ⟨bound - 1, by simp at enough; omega⟩
    refine ⟨[], rfl, by simp, ?_⟩
    rw [flowParts, List.flatMap_nil, List.nil_append, bind_ok accept_same, if_pos rfl]
    rfl
  | cons s parts ih =>
    obtain ⟨bound, rfl⟩ : ∃ k, bound = k + 1 := ⟨bound - 1, by simp at enough; omega⟩
    rw [List.flatMap_cons, List.append_assoc] at short ⊢
    simp only [List.cons_append, List.length_cons, List.length_append] at short enough ⊢
    have left : (parts.flatMap (Token.flowEntry :: tokens ·) ++ close :: rest).length ≤ id := by
      rw [List.length_append, List.length_cons]
      omega
    obtain ⟨rs, fsts, good, others⟩ := ih (fun s hs => reads s (List.mem_cons_of_mem _ hs))
      (show parts.length < bound by omega) left
    obtain ⟨x, goodPart, read⟩ := flowParts_part false (reads s List.mem_cons_self)
      (by rw [List.length_append, List.length_append, List.length_cons]; omega) others noComma
    exact ⟨(s, x) :: rs, by simp [fsts], List.forall_mem_cons.mpr ⟨goodPart, good⟩, read⟩

/-- All parts of a flow collection up to its closing mark. -/
theorem flowParts_listed (noComma : close ≠ .flowEntry)
    (reads : ∀ s ∈ parts, ReadsParts part close tokens Good id a h s) {bound : Nat}
    (enough : parts.length < bound) {rest : List Token}
    (short : (listed (parts.map tokens) ++ close :: rest).length < id) :
    ∃ rs : List (σ × α), rs.map Prod.fst = parts ∧ (∀ r ∈ rs, Good r.1 r.2) ∧
      flowParts part close true bound ⟨listed (parts.map tokens) ++ close :: rest, a, h⟩ =
        .ok (rs.map Prod.snd, ⟨rest, a, h⟩) := by
  obtain ⟨bound, rfl⟩ : ∃ k, bound = k + 1 := ⟨bound - 1, by omega⟩
  cases parts with
  | nil =>
    refine ⟨[], rfl, by simp, ?_⟩
    rw [flowParts, List.map_nil, listed, List.nil_append, bind_ok accept_same, if_pos rfl]
    rfl
  | cons s parts =>
    have shape : listed ((s :: parts).map tokens) ++ close :: rest =
        tokens s ++ (parts.flatMap (Token.flowEntry :: tokens ·) ++ close :: rest) := by
      simp [listed, List.flatMap_map]
    rw [shape] at short ⊢
    simp only [List.length_append, List.length_cons] at short enough
    have left : (parts.flatMap (Token.flowEntry :: tokens ·) ++ close :: rest).length ≤ id := by
      rw [List.length_append, List.length_cons]
      omega
    obtain ⟨rs, fsts, good, others⟩ := flowParts_rest noComma
      (fun s hs => reads s (List.mem_cons_of_mem _ hs)) (show parts.length < bound by omega) left
    obtain ⟨x, goodPart, read⟩ := flowParts_part true (reads s List.mem_cons_self)
      (by rw [List.length_append, List.length_append, List.length_cons]; omega) others noComma
    exact ⟨(s, x) :: rs, by simp [fsts], List.forall_mem_cons.mpr ⟨goodPart, good⟩, read⟩

end Parts

section Nodes

theorem Opens.other (opens : Opens t) :
    t ∉ [Token.key, .value, .flowEntry, .flowSequenceEnd, .flowMappingEnd] := by
  rcases opens with ⟨text, plain, rfl⟩ | rfl | rfl <;> simp

theorem front_of_spells {v : Value} (spells : Spells ts v) : ∃ t us, ts = t :: us ∧ Opens t := by
  cases spells with
  | scalar => exact ⟨_, _, rfl, .inl ⟨_, _, rfl⟩⟩
  | list => exact ⟨_, _, rfl, .inr (.inl rfl)⟩
  | object => exact ⟨_, _, rfl, .inr (.inr rfl)⟩

/-- Each part takes its room between the brackets. -/
theorem length_listed {tss : List (List Token)} (nonempty : ∀ us ∈ tss, us ≠ []) :
    tss.length ≤ (listed tss).length ∧ ∀ us ∈ tss, us.length ≤ (listed tss).length := by
  have behind : ∀ {rest : List (List Token)},
      rest.length ≤ (rest.flatMap (Token.flowEntry :: ·)).length ∧
        ∀ us ∈ rest, us.length ≤ (rest.flatMap (Token.flowEntry :: ·)).length := by
    intro rest
    induction rest with
    | nil => simp
    | cons us rest ih =>
      rw [List.flatMap_cons, List.length_append, List.length_cons, List.length_cons]
      refine ⟨by omega, fun ws hws => ?_⟩
      rcases List.mem_cons.mp hws with rfl | hws
      · omega
      · have := ih.2 ws hws
        omega
  cases tss with
  | nil => simp
  | cons us rest =>
    have first := List.length_pos_iff.mpr (nonempty us List.mem_cons_self)
    obtain ⟨count, lengths⟩ := @behind rest
    rw [listed, List.length_append, List.length_cons]
    refine ⟨by omega, fun ws hws => ?_⟩
    rcases List.mem_cons.mp hws with rfl | hws
    · omega
    · have := lengths ws hws
      omega

/-- The tokens are read as a node for the value, wherever a node may stand. -/
def ReadsNode (size depth : Nat) (a : List (String × Anchor)) (h : List (String × String))
    (ts : List Token) (v : Value) : Prop :=
  ∀ (block flush : Bool) (rest : List Token),
    ∃ n, node size depth block flush ⟨ts ++ rest, a, h⟩ = .ok (n, ⟨rest, a, h⟩) ∧
      Stands ((ts ++ rest).length + 1) n v

theorem readsParts_item {size depth id : Nat} {v : Value} (spells : Spells ts v)
    (reads : ReadsNode size depth a h ts v) :
    ReadsParts (flowItem (node size depth false false)) .flowSequenceEnd Prod.fst
      (fun s n => Stands id n s.2) id a h (ts, v) := by
  obtain ⟨t, us, rfl, opens⟩ := front_of_spells spells
  have other := opens.other
  simp only [List.mem_cons, List.not_mem_nil, or_false, not_or] at other
  refine ⟨⟨t, us, rfl, other.2.2.2.1⟩, fun rest short => ?_⟩
  obtain ⟨n, read, stands⟩ := reads false false rest
  refine ⟨n, ?_, stands.mono short⟩
  have noKey : accept .key ⟨t :: us ++ rest, a, h⟩ = .ok (false, ⟨t :: us ++ rest, a, h⟩) :=
    accept_other other.1
  have start : flowItem (node size depth false false) ⟨t :: us ++ rest, a, h⟩ = (do
      if ← accept .key then
        let key ← nodeUnless [.value, .flowEntry, .flowSequenceEnd] (node size depth false false)
        let value ← flowValue (node size depth false false) .flowSequenceEnd
        return .mapping (t :: us ++ rest).length .mapping [(key, value)]
      else node size depth false false : Reader Node) ⟨t :: us ++ rest, a, h⟩ := rfl
  rw [start, bind_ok noKey, if_neg (by decide), read]

theorem readsParts_pair {size depth id : Nat} {p : Pair} (spells : Spells p.tokens p.value)
    (reads : ReadsNode size (depth + 1) a h p.tokens p.value) :
    ReadsParts (flowPair (node size (depth + 1) false false)) .flowMappingEnd Pair.spelling
      (fun p x => x.1 = .scalar .text p.key ∧ Stands id x.2 p.value) id a h p := by
  refine ⟨⟨.key, _, rfl, by decide⟩, fun rest short => ?_⟩
  obtain ⟨t, us, front, opens⟩ := front_of_spells spells
  have other := opens.other
  simp only [List.mem_cons, List.not_mem_nil, or_false, not_or] at other
  obtain ⟨n, read, stands⟩ := reads false false rest
  refine ⟨(.scalar .text p.key, n), ?_, rfl, stands.mono ?_⟩
  · have key : nodeUnless [.value, .flowEntry, .flowMappingEnd] (node size (depth + 1) false false)
        ⟨.scalar p.key false :: .value :: (p.tokens ++ rest), a, h⟩ =
          .ok (.scalar .text p.key, ⟨.value :: (p.tokens ++ rest), a, h⟩) := by
      rw [nodeUnless_other (by simp), node_of_opens (.inl ⟨_, _, rfl⟩), content_scalar]
      rfl
    have value : flowValue (node size (depth + 1) false false) .flowMappingEnd
        ⟨.value :: (p.tokens ++ rest), a, h⟩ = .ok (n, ⟨rest, a, h⟩) := by
      rw [flowValue, bind_ok accept_same, if_pos rfl, ← read, front]
      exact nodeUnless_other (by simp [other.2.2.1, other.2.2.2.2])
    have shape : p.spelling ++ rest =
        .key :: .scalar p.key false :: .value :: (p.tokens ++ rest) := rfl
    rw [shape, flowPair, bind_ok accept_same, if_pos rfl, bind_ok key, bind_ok value]
    rfl
  · simp only [Pair.spelling, List.length_append, List.length_cons] at short ⊢
    omega

/-- A flow sequence of items that are read. -/
theorem readsNode_list {size depth : Nat} {parts : List (List Token × Value)}
    (spells : ∀ p ∈ parts, Spells p.1 p.2) (enough : parts.length < size)
    (reads : ∀ p ∈ parts, ReadsNode size depth a h p.1 p.2) :
    ReadsNode size (depth + 1) a h
      (.flowSequenceStart :: listed (parts.map Prod.fst) ++ [.flowSequenceEnd])
      (.list (parts.map Prod.snd)) := by
  intro block flush rest
  obtain ⟨rs, parts', good, read⟩ := flowParts_listed (by decide)
    (fun p hp => readsParts_item (spells p hp) (reads p hp)) enough
    (Nat.lt_succ_self (listed (parts.map Prod.fst) ++ .flowSequenceEnd :: rest).length)
  have shape : Token.flowSequenceStart :: listed (parts.map Prod.fst) ++ [.flowSequenceEnd] ++
      rest = .flowSequenceStart :: (listed (parts.map Prod.fst) ++ .flowSequenceEnd :: rest) := by
    simp
  have nodes : rs.map Prod.snd = (rs.map fun r => (r.2, r.1.2)).map Prod.fst := by simp
  have values : parts.map Prod.snd = (rs.map fun r => (r.2, r.1.2)).map Prod.snd := by
    simp [← parts']
  rw [shape, node_of_opens (.inr (.inl rfl)), content_sequence, bind_ok read, values, nodes]
  refine ⟨_, rfl, .sequence (Nat.lt_succ_self _) fun p hp => ?_⟩
  obtain ⟨r, hr, rfl⟩ := List.mem_map.mp hp
  exact good r hr

/-- A flow mapping of pairs whose values are read. -/
theorem readsNode_object {size depth : Nat} {pairs : List Pair}
    (spells : ∀ p ∈ pairs, Spells p.tokens p.value) (enough : pairs.length < size)
    (reads : ∀ p ∈ pairs, ReadsNode size (depth + 1) a h p.tokens p.value) :
    ReadsNode size (depth + 2) a h
      (.flowMappingStart :: listed (pairs.map Pair.spelling) ++ [.flowMappingEnd])
      (assigned (pairs.map Pair.assignment)) := by
  intro block flush rest
  obtain ⟨rs, pairs', good, read⟩ := flowParts_listed (by decide)
    (fun p hp => readsParts_pair (spells p hp) (reads p hp)) enough
    (Nat.lt_succ_self (listed (pairs.map Pair.spelling) ++ .flowMappingEnd :: rest).length)
  have shape : Token.flowMappingStart :: listed (pairs.map Pair.spelling) ++ [.flowMappingEnd] ++
      rest =
        .flowMappingStart :: (listed (pairs.map Pair.spelling) ++ .flowMappingEnd :: rest) := by
    simp
  have values : pairs.map Pair.assignment =
      (rs.map fun r => (r.1.key, r.2.2, r.1.value)).map fun p => (p.1, p.2.2) := by
    simp [← pairs', Pair.assignment]
  have nodes : rs.map Prod.snd = (rs.map fun r => (r.1.key, r.2.2, r.1.value)).map
      fun p => (Node.scalar .text p.1, p.2.1) := by
    rw [List.map_map]
    exact List.map_congr_left fun r hr => Prod.ext (good r hr).1 rfl
  rw [shape, node_of_opens (.inr (.inr rfl)), content_mapping, bind_ok read, values, nodes]
  refine ⟨_, rfl, .mapping (Nat.lt_succ_self _) fun p hp => ?_⟩
  obtain ⟨r, hr, rfl⟩ := List.mem_map.mp hp
  exact (good r hr).2

/-- The tokens of a value are read as a node for the value, if the bounds are not below their
number. -/
theorem readsNode_of_spells {v : Value} (spells : Spells ts v) {size depth : Nat}
    (wide : ts.length ≤ size) (deep : ts.length ≤ depth) : ReadsNode size depth a h ts v := by
  induction spells generalizing depth with
  | scalar value =>
    obtain ⟨depth, rfl⟩ : ∃ k, depth = k + 1 := ⟨depth - 1, by simp at deep; omega⟩
    intro block flush rest
    exact ⟨_, (node_of_opens (.inl ⟨_, _, rfl⟩) size depth block flush).trans
      (content_scalar _ _ _ _ _ _), .scalar value⟩
  | @list parts spells ih =>
    simp only [List.cons_append, List.length_cons, List.length_append, List.length_nil]
      at wide deep
    have nonempty : ∀ us ∈ parts.map Prod.fst, us ≠ [] := by
      intro us mem
      obtain ⟨p, hp, rfl⟩ := List.mem_map.mp mem
      obtain ⟨t, us, eq, -⟩ := front_of_spells (spells p hp)
      exact eq ▸ List.cons_ne_nil t us
    obtain ⟨count, lengths⟩ := length_listed nonempty
    rw [List.length_map] at count
    obtain ⟨depth, rfl⟩ : ∃ k, depth = k + 1 := ⟨depth - 1, by omega⟩
    refine readsNode_list spells (by omega) fun p hp => ?_
    have room := lengths p.1 (List.mem_map_of_mem hp)
    exact ih p hp (by omega) (by omega)
  | @object pairs spells ih =>
    simp only [List.cons_append, List.length_cons, List.length_append, List.length_nil]
      at wide deep
    have nonempty : ∀ us ∈ pairs.map Pair.spelling, us ≠ [] := by simp [Pair.spelling]
    obtain ⟨count, lengths⟩ := length_listed nonempty
    rw [List.length_map] at count
    obtain ⟨depth, rfl⟩ : ∃ k, depth = k + 2 := ⟨depth - 2, by omega⟩
    refine readsNode_object spells (by omega) fun p hp => ?_
    have room := lengths p.spelling (List.mem_map_of_mem hp)
    rw [Pair.spelling, List.length_cons, List.length_cons, List.length_cons] at room
    exact ih p hp (by omega) (by omega)

/-- A document that is one value. -/
theorem document_of_spells {v : Value} (spells : Spells ts v) {size : Nat}
    (enough : ts.length ≤ size) :
    ∃ n s, document size ⟨ts ++ [.endOfText], [], []⟩ = .ok (some n, s) ∧
      Stands (ts.length + 2) n v := by
  obtain ⟨t, us, rfl, opens⟩ := front_of_spells spells
  obtain ⟨size, rfl⟩ : ∃ k, size = k + 1 := ⟨size - 1, by simp at enough; omega⟩
  obtain ⟨n, read, stands⟩ :=
    readsNode_of_spells (a := []) (h := usualHandles) spells enough enough true false [.endOfText]
  refine ⟨n, ⟨[], [], usualHandles⟩, ?_, by simpa using stands⟩
  have plain : t ≠ .endOfText ∧ endsDocument t = false := by
    rcases opens with ⟨text, plain, rfl⟩ | rfl | rfl <;> simp [endsDocument]
  have start : directives false [] 1 ⟨t :: us ++ [.endOfText], [], []⟩ =
      .ok ((), ⟨t :: us ++ [.endOfText], [], usualHandles⟩) := by
    rcases opens with ⟨text, plain, rfl⟩ | rfl | rfl <;> rfl
  have root : (some <$> node (size + 1) (size + 1) true false : Reader (Option Node))
      ⟨t :: us ++ [.endOfText], [], usualHandles⟩ =
        .ok (some n, ⟨[.endOfText], [], usualHandles⟩) := by
    rw [← bind_pure_comp, bind_ok read]
    rfl
  have ends : dropEnds (size + 1) ⟨[.endOfText], [], usualHandles⟩ =
      .ok ((), ⟨[.endOfText], [], usualHandles⟩) := rfl
  rw [document, List.cons_append, peek_bind, if_neg plain.1, plain.2, Bool.false_and,
    if_neg (by decide), ← List.cons_append, bind_ok start, bind_ok root]
  change (dropEnds (size + 1) >>= fun _ => _) _ = _
  rw [bind_ok ends]
  rfl

end Nodes

end Reader

/-- The tokens of a text that is one value. -/
theorem ofTokens_of_spells {ts : List Token} {v : Value} (spells : Spells ts v) :
    ∃ n, ofTokens (ts ++ [.endOfText]) = .ok (some n) ∧ Stands (ts.length + 2) n v := by
  obtain ⟨n, s, read, stands⟩ := Reader.document_of_spells spells
    (show ts.length ≤ 2 * (ts ++ [Token.endOfText]).length + 2 by
      rw [List.length_append]
      omega)
  refine ⟨n, ?_, stands⟩
  change Except.map Prod.fst (Reader.document _ ⟨ts ++ [.endOfText], [], []⟩) = _
  rw [read]
  rfl

theorem ofText_eq {text : String} {ts : List Token} {root : Option Node}
    (scanned : tokens text = (ts, none)) (read : ofTokens ts = .ok root) :
    ofText text = .ok root := by
  unfold ofText
  simp only [scanned, read]

end RequestWriter.Yaml.Node
