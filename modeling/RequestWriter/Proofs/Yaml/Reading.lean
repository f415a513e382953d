import RequestWriter.Proofs.Yaml.Lexer
import RequestWriter.Proofs.Yaml.Load

/-!
# Reading flow style

The texts of flow style are read with their values. By induction on the derivation, the characters
become tokens that spell the value: a scalar becomes one token, and a list or an object a flow
collection. A word that no quote ends is told from what follows only inside brackets, so the tokens
of a scalar are those of an item, while a container may stand anywhere.
-/

namespace RequestWriter.Yaml

open Json (Starts starts_cons commas_cons mem_commas)
open Json.Grammar (Blanks Item Member commas assigned)
open RequestWriter.Yaml.Flow (IsChar Chars Denotes IsNear)
open Node (Spells Pair listed)
open Lexer (Lexes Bracket Part)

variable {t s : List Char} {v : Value}

theorem run_of_chars {b : Blanks} (chars : ∀ c ∈ b.1, IsChar c) : Run b.1 := by
  refine run_of_forall fun c hc => ?_
  have isChar := chars c hc
  rcases b.2 c hc with eq | eq | eq | eq
  · exact .inl eq
  · exact absurd eq isChar.noTab
  · exact .inr eq
  · exact absurd eq isChar.noReturn

section Fronts

theorem isFront_of_word {x : Scalar} (word : IsWord t x) : ∃ c w, t = c :: w ∧ IsFront c := by
  have fronts : ∀ c ∈ '-' :: wordFronts,
      c ≠ ' ' ∧ isBreak c = false ∧ c ≠ '#' ∧ c ≠ byteOrderMark :=
    List.all_iff_forall_prop.mp (by decide)
  have front : ∀ c ∈ '-' :: wordFronts, IsFront c := by
    intro c hc
    obtain ⟨noSpace, noBreak, noComment, noMark⟩ := fronts c hc
    exact ⟨noSpace, noBreak, noComment, noMark⟩
  obtain ⟨c, mem, w, rfl | rfl⟩ := word.front
  · exact ⟨c, w, rfl, front c (List.mem_cons_of_mem _ mem)⟩
  · exact ⟨'-', c :: w, rfl, front '-' List.mem_cons_self⟩

theorem isFront_of_denotes (h : Denotes t v) : ∃ c w, t = c :: w ∧ IsFront c := by
  cases h with
  | word h => exact isFront_of_word (isWord_of_word h)
  | _ => exact ⟨_, _, rfl, by decide, by decide, by decide, by decide⟩

end Fronts

section Tokens

/-- How far inside a value is told from what follows: a container anywhere, a scalar in brackets. -/
def floor : Value → Nat
  | .scalar _ => 1
  | _ => 0

theorem floor_le_one (v : Value) : floor v ≤ 1 := by
  cases v <;> simp [floor]

/-- Text that becomes tokens which spell the value. -/
def ReadsAs (t : List Char) (v : Value) (ts : List Token) : Prop :=
  Spells ts v ∧ Lexes (floor v) t ts

theorem readsAs_word {x : Scalar} (word : IsWord t x) :
    ReadsAs t (.scalar x) [.scalar (String.ofList t) true] :=
  ⟨.scalar word.value, Lexer.lexes_word word⟩

theorem readsAs_string (chars : Chars t s) :
    ReadsAs ('"' :: t ++ ['"']) (.text (String.ofList s)) [.scalar (String.ofList s) false] :=
  ⟨.scalar rfl, Lexer.lexes_string chars _⟩

def squareBrackets : Bracket :=
  ⟨'[', ']', .flowSequenceStart, .flowSequenceEnd, .inl ⟨rfl, rfl, rfl, rfl⟩⟩

def curlyBrackets : Bracket :=
  ⟨'\x7b', '\x7d', .flowMappingStart, .flowMappingEnd, .inr ⟨rfl, rfl, rfl, rfl⟩⟩

/-- Brackets around parts that are read become the tokens of the parts, listed. -/
theorem lexes_listed {α : Type} (k : Bracket) {parts : List α} (nonempty : parts ≠ [])
    (part : α → Part) (reads : ∀ p ∈ parts, (part p).Reads) :
    Lexes 0 (k.opening :: commas (parts.map fun p => (part p).chars) ++ [k.closing])
      (k.start :: listed (parts.map fun p => (part p).tokens) ++ [k.stop]) := by
  obtain ⟨p, parts, rfl⟩ := List.exists_cons_of_ne_nil nonempty
  have chars : commas ((p :: parts).map fun p => (part p).chars) =
      (part p).chars ++ (parts.map part).flatMap (',' :: ·.chars) := by
    simp [commas_cons, List.flatMap_map]
  have tokens : listed ((p :: parts).map fun p => (part p).tokens) =
      (part p).tokens ++ (parts.map part).flatMap (Token.flowEntry :: ·.tokens) := by
    simp [listed, List.flatMap_map]
  have all : ∀ q ∈ part p :: parts.map part, q.Reads := by simpa using reads
  rw [chars, tokens]
  exact Lexer.lexes_collection k all

/-- The part that an item is. -/
def itemPart (i : Item) (ts : List Token) : Part := ⟨i.before, i.text, i.after, ts⟩

theorem reads_item {i : Item} {ts : List Token} (chars : ∀ c ∈ i.chars, IsChar c)
    (h : Denotes i.text i.value) (reads : ReadsAs i.text i.value ts) : (itemPart i ts).Reads where
  before := run_of_chars fun c hc => chars c (by simp [Item.chars, hc])
  after := run_of_chars fun c hc => chars c (by simp [Item.chars, hc])
  front := isFront_of_denotes h
  lexes ready inside _ rest ends :=
    reads.2.mono (floor_le_one i.value) ready inside rest
      (run_of_chars fun c hc => chars c (by simp [Item.chars, hc])) ends

/-- The part that a member is. -/
def memberPart (m : Member) (ts : List Token) : Part :=
  ⟨m.before, '"' :: m.name ++ '"' :: (m.gap ++ ':' :: (m.gap' ++ m.text)), m.after,
    Pair.spelling ⟨String.ofList m.key, ts, m.value⟩⟩

theorem reads_memberPart {m : Member} {ts : List Token} (chars : ∀ c ∈ m.chars, IsChar c)
    (key : Chars m.name m.key) (near : IsNear m) (h : Denotes m.text m.value)
    (reads : ReadsAs m.text m.value ts) : (memberPart m ts).Reads := by
  have run : ∀ b : Blanks, (∀ c ∈ b.1, c ∈ m.chars) → Run b.1 :=
    fun b mem => run_of_chars fun c hc => chars c (mem c hc)
  exact Lexer.reads_member key near.spaces near.near
    (run m.gap' fun c hc => by simp [Member.chars, hc])
    ⟨run m.before fun c hc => by simp [Member.chars, hc],
      run m.after fun c hc => by simp [Member.chars, hc]⟩
    (isFront_of_denotes h) (reads.2.mono (floor_le_one m.value))

theorem readsAs_list {items : List Item} (nonempty : items ≠ [])
    (chars : ∀ i ∈ items, ∀ c ∈ i.chars, IsChar c)
    (values : ∀ i ∈ items, Denotes i.text i.value) {f : Item → List Token}
    (reads : ∀ i ∈ items, ReadsAs i.text i.value (f i)) :
    ReadsAs ('[' :: commas (items.map Item.chars) ++ [']']) (.list (items.map Item.value))
      (.flowSequenceStart :: listed (items.map f) ++ [.flowSequenceEnd]) := by
  let parts := items.map fun i => (f i, i.value)
  have tokens : items.map f = parts.map Prod.fst := by simp [parts]
  have result : items.map Item.value = parts.map Prod.snd := by simp [parts]
  have spells : ∀ p ∈ parts, Spells p.1 p.2 := by
    intro p hp
    obtain ⟨i, hi, rfl⟩ := List.mem_map.mp hp
    exact (reads i hi).1
  have lexes := lexes_listed squareBrackets nonempty (fun i => itemPart i (f i))
    fun i hi => reads_item (chars i hi) (values i hi) (reads i hi)
  refine ⟨?_, lexes⟩
  rw [tokens, result]
  exact .list spells

theorem readsAs_object {members : List Member} (nonempty : members ≠ [])
    (chars : ∀ m ∈ members, ∀ c ∈ m.chars, IsChar c)
    (keys : ∀ m ∈ members, Chars m.name m.key) (near : ∀ m ∈ members, IsNear m)
    (values : ∀ m ∈ members, Denotes m.text m.value) {f : Member → List Token}
    (reads : ∀ m ∈ members, ReadsAs m.text m.value (f m)) :
    ReadsAs ('\x7b' :: commas (members.map Member.chars) ++ ['\x7d'])
      (assigned (members.map Member.pair))
      (.flowMappingStart :: listed (members.map fun m => (memberPart m (f m)).tokens) ++
        [.flowMappingEnd]) := by
  let pairs : List Pair := members.map fun m => ⟨String.ofList m.key, f m, m.value⟩
  have tokens : members.map (fun m => (memberPart m (f m)).tokens) = pairs.map Pair.spelling := by
    simp [pairs, memberPart]
  have result : members.map Member.pair = pairs.map Pair.assignment := by
    simp [pairs, Member.pair, Pair.assignment]
  have spells : ∀ p ∈ pairs, Spells p.tokens p.value := by
    intro p hp
    obtain ⟨m, hm, rfl⟩ := List.mem_map.mp hp
    exact (reads m hm).1
  have lexes := lexes_listed curlyBrackets nonempty (fun m => memberPart m (f m))
    fun m hm => reads_memberPart (chars m hm) (keys m hm) (near m hm) (values m hm) (reads m hm)
  refine ⟨?_, lexes⟩
  rw [tokens, result]
  exact .object spells

/-- The tokens of a text of flow style spell its value. -/
theorem readsAs_denotes (h : Denotes t v) (chars : ∀ c ∈ t, IsChar c) : ∃ ts, ReadsAs t v ts := by
  induction h with
  | word h => exact ⟨_, readsAs_word (isWord_of_word h)⟩
  | string h => exact ⟨_, readsAs_string h⟩
  | emptyList b =>
    have run : Run b.1 := run_of_chars fun c hc => chars c (by simp [hc])
    have none : ∀ p ∈ ([] : List (List Token × Value)), Spells p.1 p.2 := by simp
    exact ⟨_, .list none, Lexer.lexes_empty squareBrackets run⟩
  | emptyObject b =>
    have run : Run b.1 := run_of_chars fun c hc => chars c (by simp [hc])
    have none : ∀ p ∈ ([] : List Pair), Spells p.tokens p.value := by simp
    exact ⟨_, .object none, Lexer.lexes_empty curlyBrackets run⟩
  | @list items nonempty values ih =>
    have inner : ∀ i ∈ items, ∀ c ∈ i.chars, IsChar c := fun i hi c hc =>
      chars c (by simp [mem_commas (List.mem_map_of_mem hi) c hc])
    have each : ∀ i ∈ items, ∃ ts, ReadsAs i.text i.value ts := fun i hi =>
      ih i hi fun c hc => inner i hi c (by simp [Item.chars, hc])
    choose! f reads using each
    exact ⟨_, readsAs_list nonempty inner values reads⟩
  | @object members nonempty keys near values ih =>
    have inner : ∀ m ∈ members, ∀ c ∈ m.chars, IsChar c := fun m hm c hc =>
      chars c (by simp [mem_commas (List.mem_map_of_mem hm) c hc])
    have each : ∀ m ∈ members, ∃ ts, ReadsAs m.text m.value ts := fun m hm =>
      ih m hm fun c hc => inner m hm c (by simp [Member.chars, hc])
    choose! f reads using each
    exact ⟨_, readsAs_object nonempty inner keys near values reads⟩

end Tokens

/-- A text of flow style is the document of its value. -/
theorem load_of_flow {text : String} (h : Flow.Text text.toList v) : load text = .ok ⟨[], v⟩ := by
  generalize whole : text.toList = cs at h
  obtain @⟨before, after, t, _, denotes, collection, chars⟩ := h
  have inside : ∀ {part : List Char}, (∀ c ∈ part, c ∈ before ++ t ++ after.1) →
      ∀ c ∈ part, IsChar c := fun mem c hc => chars c (mem c hc)
  obtain ⟨ts, spells, lexes⟩ := readsAs_denotes denotes (inside fun c hc => by simp [hc])
  have anywhere : floor v = 0 := by
    cases v with
    | scalar x => exact absurd rfl (collection x)
    | _ => rfl
  have front : Starts IsFront (t ++ after.1) := by
    obtain ⟨c, w, rfl, front⟩ := isFront_of_denotes denotes
    exact (starts_cons _ _ _).mpr front
  have scanned : tokens text = (ts ++ [.endOfText], none) :=
    tokens_of_lexes (anywhere ▸ lexes) (by rw [whole, List.append_assoc])
      (run_of_chars (inside fun c hc => by simp [hc]))
      (run_of_chars (inside fun c hc => by simp [hc])) front
  exact load_of_spells (fun c hc => (chars c (whole ▸ hc)).allowed) scanned spells

/-- The library of this project reads flow style, however deep it is nested. -/
theorem load_readsFlow (depth : Nat) : Loader.ReadsFlow depth := by
  intro text v h _
  change (load text).mapError Problem.refusal = _
  rw [load_of_flow h]
  rfl

end RequestWriter.Yaml
