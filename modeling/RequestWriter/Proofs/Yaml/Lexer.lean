import RequestWriter.Proofs.Yaml.Quoted
import RequestWriter.Proofs.Yaml.Scalar

/-!
# The tokens of flow collections

What the lexer does with a text that is a scalar or a flow collection, whatever follows. Between two
tokens the lexer passes over blanks and forgets places where a key could have begun; so what one
token does is stated for a state that stands at the token, and `step` leads to the state that stands
at the next one. `Reaches` is the run over several tokens, and `Lexes` says of a piece of text that
it becomes certain tokens wherever it stands. The statements about pieces are put together as the
pieces are.

A token may be put in front of one that was given before: a string turns out to be a key when the
colon behind it is met. Only then is it looked up where the string began, so a key is read together
with its colon.
-/

namespace RequestWriter.Yaml

open Json (Starts starts_cons)
open RequestWriter.Yaml.Flow (Chars)

namespace Lexer

/-- The run from a state that stands at a token. -/
def resume (bound : Nat) (l : Lexer) : List Token × Option Problem :=
  match l.token with
  | .error problem => (l.settled, some problem)
  | .ok after => if l.cursor.peek.isNone then (after.tokens.reverse, none) else run bound after

theorem run_succ {l m : Lexer} (h : l.advance = .ok m) (bound : Nat) :
    run (bound + 1) l = resume bound m := by
  rw [run, h]
  rfl

/-- No block is open, and no node has to be a key. -/
structure Ready (l : Lexer) : Prop where
  columns : l.columns = []
  optional : ∀ s ∈ l.slots, s.required = false

/-- The run goes on from the first state to the second one, in no more steps than characters. -/
def Steps (l m : Lexer) : Prop :=
  ∃ n, n + m.cursor.rest.length ≤ l.cursor.rest.length ∧
    ∀ bound, resume (bound + n) l = resume bound m

theorem Steps.trans {l m k : Lexer} (first : Steps l m) (second : Steps m k) : Steps l k := by
  obtain ⟨n, short, run⟩ := first
  obtain ⟨n', short', run'⟩ := second
  refine ⟨n' + n, by omega, fun bound => ?_⟩
  rw [← Nat.add_assoc, run, run']

/-- One token takes at least one character. -/
theorem Steps.of_token {l after m : Lexer} (token : l.token = .ok after)
    (advance : after.advance = .ok m)
    (shorter : m.cursor.rest.length < l.cursor.rest.length) : Steps l m := by
  refine ⟨1, by omega, fun bound => ?_⟩
  have more : l.cursor.peek.isNone = false := by
    cases rest : l.cursor.rest with
    | nil => simp [rest] at shorter
    | cons x r => rw [Cursor.peek_of_rest rest]; rfl
  rw [resume, token]
  simp only [more]
  exact run_succ advance bound

section Ready

variable {l : Lexer} {b cs : List Char}

theorem dropSlot_ready (ready : Ready l) :
    l.dropSlot = .ok { l with slots := l.slots.filter fun s => s.level != l.level } := by
  have optional : l.slot?.any KeySlot.required = false := by
    cases found : l.slot? with
    | none => rfl
    | some s => exact ready.optional s (List.mem_of_find?_eq_some found)
  simp [dropSlot, demand, optional]

theorem closeBlocks_eq (none : l.columns = []) (column : Int) : l.closeBlocks column = l := by
  cases l
  cases none
  unfold closeBlocks
  split <;> rfl

/-- The slot of the node at the place. -/
def newSlot (l : Lexer) : KeySlot where
  level := l.level
  place := l.count
  required := false
  index := l.cursor.index
  line := l.cursor.line
  column := l.cursor.column

/-- The slots when a node begins at the place. -/
def slotsWith (l : Lexer) : List KeySlot :=
  if l.keyAllowed then l.newSlot :: l.slots.filter fun s => s.level != l.level else l.slots

theorem openSlot_ready (ready : Ready l) : l.openSlot = .ok { l with slots := l.slotsWith } := by
  unfold openSlot slotsWith
  split
  · next allowed =>
    have optional : (!l.inFlow && l.indent == (l.cursor.column : Int)) = false := by
      have : ((-1 : Int) == (l.cursor.column : Int)) = false := by
        rw [beq_eq_false_iff_ne]
        omega
      rw [indent, ready.columns, this, Bool.and_false]
    rw [dropSlot_ready ready]
    simp only [bind, Except.bind, newSlot]
    rw [← optional]
    rfl
  · rfl

theorem Ready.slotsWith (ready : Ready l) : ∀ s ∈ l.slotsWith, s.required = false := by
  intro s hs
  unfold Lexer.slotsWith at hs
  split at hs
  · rcases List.mem_cons.mp hs with rfl | hs
    · rfl
    · exact ready.optional s (List.mem_filter.mp hs).1
  · exact ready.optional s hs

/-- The slots whose colon may still come. -/
def freshSlots (l : Lexer) (c : Cursor) : List KeySlot :=
  l.slots.filter fun s => !KeySlot.isStale c s

/-- The state some blanks further on. -/
def moved (l : Lexer) (blanks : Nat) (allowed : Bool) : Lexer :=
  { l with
    cursor := l.cursor.skip blanks
    keyAllowed := allowed
    slots := l.freshSlots (l.cursor.skip blanks) }

/-- Between two tokens only the place changes, and slots are forgotten. -/
theorem advance_ready (ready : Ready l) (blanks : Run b) (h : l.cursor.rest = b ++ cs)
    (front : Starts IsFront cs) :
    ∃ allowed, (l.inFlow = true → allowed = l.keyAllowed) ∧
      l.advance = .ok (l.moved b.length allowed) := by
  have noMark : l.cursor.sees byteOrderMark = false := by
    have start : Starts (· ≠ byteOrderMark) (b ++ cs) :=
      blanks.starts_append (by decide) (by decide) (front.mono fun _ hx => hx.noMark)
    rw [← h] at start
    cases rest : l.cursor.rest with
    | nil => simp [Cursor.sees, Cursor.peek, rest]
    | cons x r =>
      rw [rest, starts_cons] at start
      simp [Cursor.sees, Cursor.peek, rest, start]
  obtain ⟨newLine, skip⟩ := skipEmpty_run blanks
    (show b.length < l.cursor.rest.length + 1 by rw [h, List.length_append]; omega) h front
  refine ⟨l.keyAllowed || (newLine && !l.inFlow), fun flow => by simp [flow], ?_⟩
  have optional : (l.slots.filter (KeySlot.isStale (l.cursor.skip b.length))).any
      KeySlot.required = false := by
    rw [List.any_eq_false]
    intro s hs
    simp [ready.optional s (List.mem_filter.mp hs).1]
  rw [advance, noMark, Bool.and_false, if_neg (by decide), skip]
  simp only [dropStaleSlots, List.partition_eq_filter_filter, optional, demand]
  exact congrArg Except.ok (closeBlocks_eq (by exact ready.columns) _)

/-- A token and the blanks behind it. -/
theorem step {after : Lexer} (token : l.token = .ok after) (ready : Ready after)
    (shorter : after.cursor.rest.length < l.cursor.rest.length) (blanks : Run b)
    (h : after.cursor.rest = b ++ cs) (front : Starts IsFront cs) :
    ∃ allowed, (after.inFlow = true → allowed = after.keyAllowed) ∧
      Steps l (after.moved b.length allowed) ∧ Ready (after.moved b.length allowed) ∧
      (after.moved b.length allowed).cursor.rest = cs := by
  obtain ⟨allowed, same, advance⟩ := advance_ready ready blanks h front
  have rest : (after.moved b.length allowed).cursor.rest = cs := Cursor.rest_skip_length h
  refine ⟨allowed, same, .of_token token advance ?_, ⟨ready.columns, fun s hs => ?_⟩, rest⟩
  · rw [rest]
    simp only [h, List.length_append] at shorter
    omega
  · exact ready.optional s (List.mem_filter.mp hs).1

end Ready

section Tokens

variable {l : Lexer} {r : List Char}

theorem token_flowStart {x : Char} {t : Token} (ready : Ready l) (h : l.cursor.rest = x :: r)
    (mark : x = '[' ∧ t = .flowSequenceStart ∨ x = '\x7b' ∧ t = .flowMappingStart) :
    l.token = .ok (({ l with
      slots := l.slotsWith, level := l.level + 1, keyAllowed := true } : Lexer).pushMark t 1) := by
  rcases mark with ⟨rfl, rfl⟩ | ⟨rfl, rfl⟩ <;>
    simp [token, Cursor.peek_of_rest h, seesDocumentLine, Cursor.sees, atFlowStart,
      openSlot_ready ready, bind, Except.bind, pure, Except.pure]

theorem token_flowEnd {x : Char} {t : Token} (ready : Ready l) (flow : l.inFlow = true)
    (h : l.cursor.rest = x :: r)
    (mark : x = ']' ∧ t = .flowSequenceEnd ∨ x = '\x7d' ∧ t = .flowMappingEnd) :
    l.token = .ok (({ l with
      slots := l.slots.filter fun s => s.level != l.level
      level := l.level - 1
      keyAllowed := false } : Lexer).pushMark t 1) := by
  rcases mark with ⟨rfl, rfl⟩ | ⟨rfl, rfl⟩ <;>
    simp [token, Cursor.peek_of_rest h, seesDocumentLine, Cursor.sees, atFlowEnd, flow, demand,
      dropSlot_ready ready, bind, Except.bind, pure, Except.pure]

theorem token_flowEntry (ready : Ready l) (h : l.cursor.rest = ',' :: r) :
    l.token = .ok (({ l with
      slots := l.slots.filter fun s => s.level != l.level
      keyAllowed := true } : Lexer).pushMark .flowEntry 1) := by
  simp [token, Cursor.peek_of_rest h, seesDocumentLine, Cursor.sees, atFlowEntry,
    dropSlot_ready ready, bind, Except.bind, pure, Except.pure]

/-- The state behind a scalar. -/
def scalarRead (l : Lexer) (text : String) (plain : Bool) (length : Nat) (allowed : Bool) : Lexer :=
  { l with
    slots := l.slotsWith
    keyAllowed := allowed
    cursor := l.cursor.skip length }.push (.scalar text plain)

theorem token_string {t s : List Char} (ready : Ready l) (chars : Chars t s)
    (h : l.cursor.rest = '"' :: t ++ '"' :: r) :
    l.token = .ok (l.scalarRead (String.ofList s) false (t.length + 2) false) := by
  have read := Quoted.scalar_chars chars h
  have front : l.cursor.peek = some '"' := Cursor.peek_of_rest h
  simp [token, front, seesDocumentLine, Cursor.sees, atNodePart, quoted, openSlot_ready ready, bind,
    Except.bind, pure, Except.pure, read, scalarRead]

theorem token_value {s : KeySlot} (flow : l.inFlow = true) (slot : l.slot? = some s)
    (h : l.cursor.rest = ':' :: r) :
    l.token = .ok (({ l with
      slots := l.slots.filter fun s => s.level != l.level
      tokens := insertBefore [.key] (l.count - s.place) l.tokens
      count := l.count + 1
      keyAllowed := false } : Lexer).pushMark .value 1) := by
  have still : ∀ slots tokens count,
      inFlow { l with slots := slots, tokens := tokens, count := count } = true := fun _ _ _ => flow
  simp [token, Cursor.peek_of_rest h, seesDocumentLine, Cursor.sees, atValue, slot, flow, insertAt,
    still, pure, Except.pure]

/-- A digit or a letter begins a plain scalar, and so does a minus sign in front of one. -/
theorem token_plain {x : Char} (mem : x ∈ wordFronts)
    (h : l.cursor.rest = x :: r ∨ l.cursor.rest = '-' :: x :: r) : l.token = l.atPlain := by
  have other : ∀ x ∈ wordFronts,
      x ∉ ['%', '-', '.', '[', '\x7b', ']', '\x7d', ',', '?', ':', '*', '&', '!', '|', '>', '\'',
          '"'] ∧
        isWideGap (some x) = false ∧ isIndicator x = false :=
    List.all_iff_forall_prop.mp (by decide)
  obtain ⟨others, noGap, noIndicator⟩ := other x mem
  simp only [List.mem_cons, List.not_mem_nil, or_false, not_or] at others
  rcases h with h | h
  · simp [token, Cursor.peek_of_rest h, seesDocumentLine, Cursor.sees, others, startsPlain, noGap,
      noIndicator]
  · have apart : isWideGap (l.cursor.peekAt 1) = false := by rw [Cursor.peekAt, h]; exact noGap
    have noMark : l.cursor.seesDocumentMark = false := by
      simp [Cursor.seesDocumentMark, h, Ne.symm others.2.1]
    simp [token, Cursor.peek_of_rest h, seesDocumentLine, Cursor.sees, standsApart, startsPlain,
      apart, noMark]

theorem token_word {t b cs : List Char} {s : Scalar} (ready : Ready l) (flow : l.inFlow = true)
    (word : IsWord t s) (blanks : Run b) (ends : Starts IsFlowEnd cs)
    (h : l.cursor.rest = t ++ (b ++ cs)) :
    ∃ allowed, l.token =
      .ok (l.scalarRead (String.ofList t) true (t.length + b.length) allowed) := by
  obtain ⟨x, mem, w, front⟩ := word.front
  have nonempty : t ≠ [] := by rcases front with rfl | rfl <;> simp
  have start : l.cursor.rest = x :: (w ++ (b ++ cs)) ∨
      l.cursor.rest = '-' :: x :: (w ++ (b ++ cs)) := by
    rw [h]
    exact front.imp (fun eq => by rw [eq]; rfl) (fun eq => by rw [eq]; rfl)
  obtain ⟨newLine, read⟩ := Plain.scalar_word nonempty word.chars blanks ends h (l.indent + 1).toNat
  refine ⟨newLine, ?_⟩
  rw [token_plain mem start, atPlain, openSlot_ready ready]
  have flow' : inFlow { l with slots := l.slotsWith } = true := flow
  have indent' : indent { l with slots := l.slotsWith } = l.indent := rfl
  simp only [bind, Except.bind, flow', indent', read]
  rfl

/-- At the end of the text. -/
theorem token_end (ready : Ready l) (h : l.cursor.rest = []) :
    l.token =
      .ok (({ l with keyAllowed := false, slots := [] } : Lexer).push .endOfText) := by
  have peek : l.cursor.peek = none := by rw [Cursor.peek, h]; rfl
  simp [token, peek, atEnd, closeBlocks_eq ready.columns, dropSlot_ready ready, bind, Except.bind,
    pure, Except.pure]

end Tokens

/-- The run comes from one state to another, which stands in front of this text, and has given these
tokens on its way. -/
structure Reaches (l : Lexer) (ts : List Token) (m : Lexer) (level : Nat) (cs : List Char) :
    Prop where
  steps : Steps l m
  ready : Ready m
  level : m.level = level
  tokens : m.tokens = ts.reverse ++ l.tokens
  rest : m.cursor.rest = cs

theorem Reaches.trans {l m k : Lexer} {ts us : List Token} {i j : Nat} {cs ds : List Char}
    (first : Reaches l ts m i cs) (second : Reaches m us k j ds) :
    Reaches l (ts ++ us) k j ds where
  steps := first.steps.trans second.steps
  ready := second.ready
  level := second.level
  tokens := by rw [second.tokens, first.tokens, List.reverse_append, List.append_assoc]
  rest := second.rest

/-- On this level or further inside, the text becomes these tokens in front of what ends an item. -/
def Lexes (least : Nat) (t : List Char) (ts : List Token) : Prop :=
  ∀ ⦃l : Lexer⦄ ⦃b cs : List Char⦄, Ready l → least ≤ l.level → l.cursor.rest = t ++ (b ++ cs) →
    Run b → Starts IsFlowEnd cs → ∃ m, Reaches l ts m l.level cs

theorem Lexes.mono {i j : Nat} {t : List Char} {ts : List Token} (h : Lexes i t ts) (le : i ≤ j) :
    Lexes j t ts :=
  fun _ _ _ ready enough => h ready (Nat.le_trans le enough)

section Scalars

theorem inFlow_of_level {l : Lexer} (h : 1 ≤ l.level) : l.inFlow = true := by
  rw [inFlow, bne_iff_ne]
  omega

theorem ready_scalarRead {l : Lexer} (ready : Ready l) (text : String) (plain : Bool) (n : Nat)
    (allowed : Bool) : Ready (l.scalarRead text plain n allowed) :=
  ⟨ready.columns, ready.slotsWith⟩

theorem lexes_word {t : List Char} {s : Scalar} (word : IsWord t s) :
    Lexes 1 t [.scalar (String.ofList t) true] := by
  intro l b cs ready enough h blanks ends
  obtain ⟨allowed, token⟩ := token_word ready (inFlow_of_level enough) word blanks ends h
  have rest : (l.cursor.skip (t.length + b.length)).rest = cs := by
    rw [← Cursor.skip_skip, Cursor.rest_skip_length (Cursor.rest_skip_length h)]
  have shorter : cs.length < l.cursor.rest.length := by
    obtain ⟨x, -, w, rfl | rfl⟩ := word.front <;> simp [h] <;> omega
  have front : Starts IsFront cs := ends.mono fun _ hx => hx.isFront
  obtain ⟨allowed', -, steps, ready', rest'⟩ := step (b := []) token
    (ready_scalarRead ready _ _ _ _) (by simpa [scalarRead, push, rest] using shorter) (.last 0)
    rest front
  exact ⟨_, steps, ready', rfl, rfl, rest'⟩

theorem lexes_string {t s : List Char} (chars : Chars t s) (least : Nat) :
    Lexes least ('"' :: t ++ ['"']) [.scalar (String.ofList s) false] := by
  intro l b cs ready enough h blanks ends
  have shape : l.cursor.rest = '"' :: t ++ '"' :: (b ++ cs) := by simpa using h
  have token := token_string ready chars shape
  have rest : (l.cursor.skip (t.length + 2)).rest = b ++ cs := by
    have := Cursor.rest_skip_length h
    simpa using this
  obtain ⟨allowed, -, steps, ready', rest'⟩ := step token (ready_scalarRead ready _ _ _ _)
    (by simp [scalarRead, push, rest, shape]; omega) blanks rest (ends.mono fun _ hx => hx.isFront)
  exact ⟨_, steps, ready', rfl, rfl, rest'⟩

end Scalars

section Containers

variable {l : Lexer} {b cs : List Char}

/-- The brackets of a flow collection and their tokens. -/
structure Bracket where
  opening : Char
  closing : Char
  start : Token
  stop : Token
  known : opening = '[' ∧ closing = ']' ∧ start = .flowSequenceStart ∧ stop = .flowSequenceEnd ∨
    opening = '\x7b' ∧ closing = '\x7d' ∧ start = .flowMappingStart ∧ stop = .flowMappingEnd

theorem Bracket.isFlowEnd (k : Bracket) : IsFlowEnd k.closing := by
  rcases k.known with ⟨-, eq, -⟩ | ⟨-, eq, -⟩ <;> rw [eq]
  · exact .inr (.inl rfl)
  · exact .inr (.inr rfl)

/-- An opening bracket leads one level further inside, where a key may begin. -/
theorem reaches_start (k : Bracket) (ready : Ready l) (h : l.cursor.rest = k.opening :: (b ++ cs))
    (blanks : Run b) (front : Starts IsFront cs) :
    ∃ m, Reaches l [k.start] m (l.level + 1) cs ∧ m.keyAllowed = true := by
  have token := token_flowStart ready h
    (k.known.imp (fun k => ⟨k.1, k.2.2.1⟩) fun k => ⟨k.1, k.2.2.1⟩)
  have rest : (l.cursor.skip 1).rest = b ++ cs := by rw [Cursor.rest_skip, h]; rfl
  obtain ⟨allowed, same, steps, ready', rest'⟩ := step token ⟨ready.columns, ready.slotsWith⟩
    (by simp [pushMark, push, rest, h]) blanks rest front
  exact ⟨_, ⟨steps, ready', rfl, rfl, rest'⟩, same (inFlow_of_level (Nat.le_add_left 1 l.level))⟩

/-- A closing bracket leads one level back. -/
theorem reaches_stop (k : Bracket) (ready : Ready l) (inside : 1 ≤ l.level)
    (h : l.cursor.rest = k.closing :: (b ++ cs)) (blanks : Run b) (front : Starts IsFront cs) :
    ∃ m, Reaches l [k.stop] m (l.level - 1) cs := by
  have token := token_flowEnd ready (inFlow_of_level inside) h
    (k.known.imp (fun k => ⟨k.2.1, k.2.2.2⟩) fun k => ⟨k.2.1, k.2.2.2⟩)
  have rest : (l.cursor.skip 1).rest = b ++ cs := by rw [Cursor.rest_skip, h]; rfl
  obtain ⟨allowed, -, steps, ready', rest'⟩ := step token
    ⟨ready.columns, fun s hs => ready.optional s (List.mem_filter.mp hs).1⟩
    (by simp [pushMark, push, rest, h]) blanks rest front
  exact ⟨_, steps, ready', rfl, rfl, rest'⟩

/-- Behind a comma a key may begin. -/
theorem reaches_comma (ready : Ready l) (inside : 1 ≤ l.level)
    (h : l.cursor.rest = ',' :: (b ++ cs)) (blanks : Run b) (front : Starts IsFront cs) :
    ∃ m, Reaches l [.flowEntry] m l.level cs ∧ m.keyAllowed = true := by
  have token := token_flowEntry ready h
  have rest : (l.cursor.skip 1).rest = b ++ cs := by rw [Cursor.rest_skip, h]; rfl
  obtain ⟨allowed, same, steps, ready', rest'⟩ := step token
    ⟨ready.columns, fun s hs => ready.optional s (List.mem_filter.mp hs).1⟩
    (by simp [pushMark, push, rest, h]) blanks rest front
  exact ⟨_, ⟨steps, ready', rfl, rfl, rest'⟩, same (inFlow_of_level inside)⟩

/-- An item of a flow collection with the blanks around it, and its tokens. -/
structure Part where
  before : List Char
  text : List Char
  after : List Char
  tokens : List Token

namespace Part

/-- The characters of an item and its blanks. -/
def chars (p : Part) : List Char := p.before ++ p.text ++ p.after

/-- The item becomes its tokens where a key may begin. -/
structure Reads (p : Part) : Prop where
  before : Run p.before
  after : Run p.after
  front : ∃ x w, p.text = x :: w ∧ IsFront x
  lexes : ∀ {l : Lexer} {cs : List Char}, Ready l → 1 ≤ l.level → l.keyAllowed = true →
    l.cursor.rest = p.text ++ (p.after ++ cs) → Starts IsFlowEnd cs →
    ∃ m, Reaches l p.tokens m l.level cs

theorem Reads.starts {p : Part} (h : p.Reads) (cs : List Char) : Starts IsFront (p.text ++ cs) := by
  obtain ⟨x, w, eq, front⟩ := h.front
  rw [eq, List.cons_append, starts_cons]
  exact front

end Part

/-- Items between commas, one behind the other. -/
theorem reaches_parts {close : Char} (ends : IsFlowEnd close) (r : List Char) {p : Part}
    {ps : List Part} (reads : ∀ q ∈ p :: ps, q.Reads) {l : Lexer} (ready : Ready l)
    (inside : 1 ≤ l.level) (allowed : l.keyAllowed = true)
    (h : l.cursor.rest = p.text ++ (p.after ++ (ps.flatMap (',' :: ·.chars) ++ close :: r))) :
    ∃ m, Reaches l (p.tokens ++ ps.flatMap (Token.flowEntry :: ·.tokens)) m l.level
      (close :: r) := by
  have first := reads p List.mem_cons_self
  induction ps generalizing p l with
  | nil =>
    simp only [List.flatMap_nil, List.nil_append, List.append_nil] at h ⊢
    exact first.lexes ready inside allowed h (by simpa using ends)
  | cons q ps ih =>
    have second := reads q (by simp)
    have shape : (q :: ps).flatMap (',' :: ·.chars) ++ close :: r = ',' :: (q.before ++
        (q.text ++ (q.after ++ (ps.flatMap (',' :: ·.chars) ++ close :: r)))) := by
      simp [Part.chars]
    rw [shape] at h
    obtain ⟨m, one⟩ := first.lexes ready inside allowed h (by simpa using .inl rfl)
    obtain ⟨m', comma, allowed'⟩ := reaches_comma one.ready (by rw [one.level]; exact inside)
      one.rest second.before (second.starts _)
    obtain ⟨k, others⟩ := ih (p := q) (fun p hp => reads p (List.mem_cons_of_mem _ hp)) comma.ready
      (by rw [comma.level, one.level]; exact inside) allowed' comma.rest second
    rw [comma.level, one.level] at others
    rw [one.level] at comma
    refine ⟨k, ?_⟩
    simpa using one.trans (comma.trans others)

theorem lexes_empty (k : Bracket) (blanks : Run b) :
    Lexes 0 (k.opening :: b ++ [k.closing]) [k.start, k.stop] := by
  intro l b' cs ready _ h blanks' ends
  have shape : l.cursor.rest = k.opening :: (b ++ k.closing :: (b' ++ cs)) := by simpa using h
  obtain ⟨m, start, -⟩ := reaches_start k ready shape blanks (by simpa using k.isFlowEnd.isFront)
  obtain ⟨m', stop⟩ := reaches_stop k start.ready (by rw [start.level]; omega) start.rest blanks'
    (ends.mono fun _ hx => hx.isFront)
  rw [start.level, Nat.add_sub_cancel] at stop
  exact ⟨m', start.trans stop⟩

/-- A collection becomes its brackets and its items, with commas between them. -/
theorem lexes_collection (k : Bracket) {p : Part} {ps : List Part}
    (reads : ∀ q ∈ p :: ps, q.Reads) :
    Lexes 0 (k.opening :: (p.chars ++ ps.flatMap (',' :: ·.chars)) ++ [k.closing])
      (k.start :: (p.tokens ++ ps.flatMap (Token.flowEntry :: ·.tokens)) ++ [k.stop]) := by
  intro l b cs ready _ h blanks ends
  have first := reads p List.mem_cons_self
  have shape : l.cursor.rest = k.opening :: (p.before ++ (p.text ++ (p.after ++
      (ps.flatMap (',' :: ·.chars) ++ k.closing :: (b ++ cs))))) := by
    simpa [Part.chars] using h
  obtain ⟨m, start, allowed⟩ := reaches_start k ready shape first.before (first.starts _)
  obtain ⟨m', items⟩ := reaches_parts k.isFlowEnd (b ++ cs) reads start.ready
    (by rw [start.level]; omega) allowed start.rest
  rw [start.level] at items
  obtain ⟨k', stop⟩ := reaches_stop k items.ready (by rw [items.level]; omega) items.rest blanks
    (ends.mono fun _ hx => hx.isFront)
  rw [items.level, Nat.add_sub_cancel] at stop
  exact ⟨k', by simpa using start.trans (items.trans stop)⟩

/-- A node is still remembered at a colon that stands on its line and not too far away. -/
theorem slot?_moved (after : Lexer) {s : KeySlot} {others : List KeySlot} {n : Nat}
    (slots : after.slots = s :: others) (level : s.level = after.level)
    (line : (after.cursor.skip n).line = s.line)
    (near : (after.cursor.skip n).index - s.index ≤ longestKey) (allowed : Bool) :
    (after.moved n allowed).slot? = some s := by
  have fresh : KeySlot.isStale (after.cursor.skip n) s = false := by
    simp [KeySlot.isStale, line, near]
  rw [slot?, moved]
  simp [freshSlots, slots, fresh, level]

/-- A string waits for its colon, and the mark of a key is put in front of it then. -/
theorem reaches_colon {m : Lexer} {s : KeySlot} {t : Token} {ts : List Token} (ready : Ready m)
    (inside : 1 ≤ m.level) (slot : m.slot? = some s) (place : m.count - s.place = 1)
    (tokens : m.tokens = t :: ts) (blanks : Run b) (front : Starts IsFront cs)
    (h : m.cursor.rest = ':' :: (b ++ cs)) :
    ∃ k, Steps m k ∧ Ready k ∧ k.level = m.level ∧ k.tokens = .value :: t :: .key :: ts ∧
      k.cursor.rest = cs := by
  have token := token_value (inFlow_of_level inside) slot h
  have rest : (m.cursor.skip 1).rest = b ++ cs := by rw [Cursor.rest_skip, h]; rfl
  obtain ⟨allowed, -, steps, ready', rest'⟩ := step token
    ⟨ready.columns, fun s hs => ready.optional s (List.mem_filter.mp hs).1⟩
    (by simp [pushMark, push, rest, h]) blanks rest front
  refine ⟨_, steps, ready', rfl, ?_, rest'⟩
  simp [moved, pushMark, push, place, tokens, insertBefore]

/-- A key up to the value behind its colon. -/
theorem reaches_key {name key gap gap' : List Char} (chars : Chars name key)
    (spaces : ∀ x ∈ gap, x = ' ')
    (near : name.length + 2 + gap.length ≤ longestKey) (blanks : Run gap') (ready : Ready l)
    (inside : 1 ≤ l.level) (allowed : l.keyAllowed = true) (front : Starts IsFront cs)
    (h : l.cursor.rest = '"' :: name ++ '"' :: (gap ++ ':' :: (gap' ++ cs))) :
    ∃ m, Reaches l [.key, .scalar (String.ofList key) false, .value] m l.level cs := by
  let named := '"' :: name ++ ['"'] ++ gap
  have split : l.cursor.rest = named ++ ':' :: (gap' ++ cs) := by simpa [named] using h
  have length : named.length = name.length + 2 + gap.length := by
    simp [named]
    omega
  have lineFlat : ∀ x ∈ named, isBreak x = false := by
    intro x hx
    simp only [named, List.mem_append, List.mem_cons, List.not_mem_nil, or_false] at hx
    rcases hx with ((rfl | hx) | rfl) | hx
    · rfl
    · exact (chars.onLine x hx).1
    · rfl
    · rw [spaces x hx]
      rfl
  have place : (l.cursor.skip (name.length + 2)).skip gap.length = l.cursor.skip named.length := by
    rw [Cursor.skip_skip, length]
  have rest : (l.cursor.skip (name.length + 2)).rest = gap ++ ':' :: (gap' ++ cs) := by
    have := Cursor.rest_skip_length (a := '"' :: name ++ ['"']) (by simpa using h)
    simpa using this
  obtain ⟨allowed', -, steps, ready', rest'⟩ := step (token_string ready chars h)
    (ready_scalarRead ready _ _ _ _) (by simp [scalarRead, push, rest, h]; omega)
    (run_of_forall fun x hx => .inl (spaces x hx)) rest
    ((starts_cons _ _ _).mpr ⟨by decide, by decide, by decide, by decide⟩)
  have slot := slot?_moved (l.scalarRead (String.ofList key) false (name.length + 2) false)
    (s := l.newSlot) (n := gap.length)
    (by simp [scalarRead, push, slotsWith, allowed]; rfl) rfl
    (show ((l.cursor.skip (name.length + 2)).skip gap.length).line = l.cursor.line by
      rw [place, Cursor.line_skip_length split lineFlat])
    (show ((l.cursor.skip (name.length + 2)).skip gap.length).index - l.cursor.index ≤ longestKey by
      rw [place, Cursor.index_skip_length split, length]
      omega)
    allowed'
  obtain ⟨k, steps', ready'', level, tokens, rest''⟩ := reaches_colon ready' inside slot
    (show l.count + 1 - l.count = 1 by omega) rfl blanks front rest'
  exact ⟨k, steps.trans steps', ready'', level, tokens, rest''⟩

/-- A member of a mapping, with its key and its value. -/
theorem reads_member {name key gap gap' text before after : List Char} {ts : List Token}
    (chars : Chars name key) (spaces : ∀ x ∈ gap, x = ' ')
    (near : name.length + 2 + gap.length ≤ longestKey)
    (blanks : Run gap') (runs : Run before ∧ Run after) (front : ∃ x w, text = x :: w ∧ IsFront x)
    (value : Lexes 1 text ts) :
    Part.Reads ⟨before, '"' :: name ++ '"' :: (gap ++ ':' :: (gap' ++ text)), after,
      .key :: .scalar (String.ofList key) false :: .value :: ts⟩ where
  before := runs.1
  after := runs.2
  front := ⟨'"', _, rfl, by decide, by decide, by decide, by decide⟩
  lexes := by
    intro l cs ready inside allowed h ends
    have starts : Starts IsFront (text ++ (after ++ cs)) := by
      obtain ⟨x, w, rfl, hx⟩ := front
      exact (starts_cons _ _ _).mpr hx
    obtain ⟨m, named⟩ := reaches_key chars spaces near blanks ready inside allowed starts
      (by simpa using h)
    obtain ⟨k, valued⟩ :=
      value named.ready (by rw [named.level]; exact inside) named.rest runs.2 ends
    rw [named.level] at valued
    exact ⟨k, named.trans valued⟩

end Containers

end Lexer

/-- A text between blanks becomes its tokens, and nothing is left. -/
theorem tokens_of_lexes {text : String} {before t after : List Char} {ts : List Token}
    (h : Lexer.Lexes 0 t ts) (split : text.toList = before ++ (t ++ after)) (blanks : Run before)
    (blanks' : Run after) (front : Starts IsFront (t ++ after)) :
    tokens text = (ts ++ [.endOfText], none) := by
  let l : Lexer := { cursor := Cursor.ofText text }
  have ready : l.Ready := ⟨rfl, by simp [l]⟩
  obtain ⟨allowed, -, advance⟩ := Lexer.advance_ready ready blanks split front
  have rest : (l.moved before.length allowed).cursor.rest = t ++ (after ++ []) := by
    rw [List.append_nil]
    exact Cursor.rest_skip_length split
  have ready' : (l.moved before.length allowed).Ready :=
    ⟨rfl, by simp [l, Lexer.moved, Lexer.freshSlots]⟩
  obtain ⟨m, reaches⟩ := h ready' (Nat.zero_le _) rest blanks' (by simp)
  obtain ⟨n, short, run⟩ := reaches.steps
  obtain ⟨bound, enough⟩ : ∃ bound, text.length + 1 = bound + n := by
    refine ⟨text.length + 1 - n, ?_⟩
    have long := congrArg List.length split
    rw [String.length_toList, List.length_append] at long
    rw [rest, List.append_nil] at short
    omega
  have peek : m.cursor.peek = none := by rw [Cursor.peek, reaches.rest]; rfl
  rw [tokens, Lexer.run_succ advance, enough, run, Lexer.resume,
    Lexer.token_end reaches.ready reaches.rest]
  simp [peek, Lexer.push, reaches.tokens, l, Lexer.moved]

end RequestWriter.Yaml
