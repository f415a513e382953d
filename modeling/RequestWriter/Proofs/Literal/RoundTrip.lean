import RequestWriter.Proofs.Literal.Reader
import RequestWriter.Proofs.Json.Sequence
import RequestWriter.Proofs.Json.Integer
import RequestWriter.Proofs.Json.Reading
import RequestWriter.Proofs.Value.Parts

/-!
# Literals read back

What the writer of literals leaves is read back by the reader of the same dialect: the value itself,
but for null in the place of the parts beyond the depth bound. The proof is an induction on the
levels that are left. A scalar has to be read at the end of a token only, so the class of scalars is
an argument and each class brings its own reason.
-/

namespace RequestWriter.Literal

open Json Json.Grammar

variable {t : Target} {size depth : Nat}

section Tokens

theorem isPrefixOf?_cons_cons (a b : Char) (word cs : List Char) :
    (a :: word).isPrefixOf? (b :: cs) = if a == b then word.isPrefixOf? cs else none := rfl

theorem isPrefixOf?_append (word cs : List Char) : word.isPrefixOf? (word ++ cs) = some cs := by
  induction word with
  | nil => cases cs <;> rfl
  | cons c word ih =>
    rw [List.cons_append, isPrefixOf?_cons_cons, if_pos (beq_self_eq_true c), ih]

theorem delimiter_cases (t : Target) : t.dialect.delimiter = '\'' ∨ t.dialect.delimiter = '"' := by
  cases t <;> decide

/-- A string may stand where a token ends. -/
theorem closes_of_ends {rest : List Char} (h : Ends rest) : t.dialect.Closes rest := by
  intro _ eq
  have := h _ eq
  rcases delimiter_cases t with d | d <;> rw [d] at this <;> revert this <;> decide

theorem constant?_null (t : Target) (rest : List Char) :
    constant? t.dialect (t.dialect.null.toList ++ rest) = some (.null, rest) := by
  rw [constant?, isPrefixOf?_append]
  rfl

theorem constant?_bool (t : Target) (b : Bool) (rest : List Char) :
    constant? t.dialect ((if b then t.dialect.yes else t.dialect.no).toList ++ rest) =
      some (.bool b, rest) := by
  cases t <;> cases b <;> rfl

/-- Brackets, strings and numbers do not begin like a word. -/
theorem constant?_none {c : Char}
    (front : c = '[' ∨ c = '\x7b' ∨ c = t.dialect.delimiter ∨ c.isDigit = true ∨ c = '-')
    (cs : List Char) : constant? t.dialect (c :: cs) = none := by
  have letters : 'n' ≠ c ∧ 't' ≠ c ∧ 'f' ≠ c ∧ 'N' ≠ c ∧ 'T' ≠ c ∧ 'F' ≠ c ∧ '$' ≠ c := by
    refine ⟨?_, ?_, ?_, ?_, ?_, ?_, ?_⟩ <;> rintro rfl <;>
      rcases delimiter_cases t with d | d <;> rw [d] at front <;> revert front <;> decide
  cases t <;> simp [constant?, Target.dialect, isPrefixOf?_cons_cons, letters]

theorem string?_quote (t : Target) (s : String) {rest : List Char} (stop : t.dialect.Closes rest) :
    string? t.dialect ((t.dialect.quote s).toList ++ rest) = some (s, rest) := by
  have body := Dialect.unquote?_escaped t.sound s.toList stop
  rw [Dialect.toList_quote]
  simp [string?, body]

theorem string?_none {c : Char} (other : c ≠ t.dialect.delimiter) (cs : List Char) :
    string? t.dialect (c :: cs) = none := by
  simp [string?, other]

theorem value?_string (s : String) {rest : List Char} (stop : Ends rest) :
    value? t.dialect size (depth + 1) ((t.dialect.quote s).toList ++ rest) =
      some (.text s, rest) := by
  have read := string?_quote t s (closes_of_ends stop)
  rw [Dialect.toList_quote, List.cons_append] at read ⊢
  unfold value?
  rw [constant?_none (.inr (.inr (.inl rfl))), Option.none_or]
  split
  · next eq => rcases delimiter_cases t with d | d <;> simp [d] at eq
  · next eq => rcases delimiter_cases t with d | d <;> simp [d] at eq
  · rw [read]
    rfl

theorem value?_number {c : Char} (front : c.isDigit = true ∨ c = '-') (cs : List Char) :
    value? t.dialect size (depth + 1) (c :: cs) = number? (c :: cs) := by
  have notDelimiter : c ≠ t.dialect.delimiter := by
    rcases delimiter_cases t with d | d <;> rw [d] <;> rintro rfl <;> revert front <;> decide
  unfold value?
  rw [constant?_none (.inr (.inr (.inr front))), Option.none_or]
  split
  · next eq =>
    cases eq
    simp at front
  · next eq =>
    cases eq
    simp at front
  · rw [string?_none notDelimiter]
    rfl

theorem value?_list {cs rest : List Char} {v : Value}
    (h : listBody? size (value? t.dialect size depth) cs = some (v, rest)) :
    value? t.dialect size (depth + 1) ('[' :: cs) = some (v, rest) := by
  unfold value?
  rw [constant?_none (.inl rfl)]
  exact h

theorem value?_mapping {cs rest : List Char} {v : Value}
    (h : mappingBody? t.dialect size (value? t.dialect size depth) cs = some (v, rest)) :
    value? t.dialect size (depth + 1) ('\x7b' :: cs) = some (v, rest) := by
  unfold value?
  rw [constant?_none (.inr (.inl rfl))]
  exact h

end Tokens

section Scalars

/-- The reader takes the literal of the scalar as a whole where a token ends. -/
def ReadsScalar (t : Target) (s : Scalar) : Prop :=
  Begins (scalar t.dialect s).toList ∧ ∀ size depth rest, Ends rest →
    value? t.dialect size (depth + 1) ((scalar t.dialect s).toList ++ rest) = some (.scalar s, rest)

theorem value?_of_constant {cs rest : List Char} {v : Value}
    (h : constant? t.dialect cs = some (v, rest)) :
    value? t.dialect size (depth + 1) cs = some (v, rest) := by
  unfold value?
  rw [h]
  rfl

theorem value?_null (t : Target) (rest : List Char) :
    value? t.dialect size (depth + 1) (t.dialect.null.toList ++ rest) = some (.null, rest) :=
  value?_of_constant (constant?_null t rest)

theorem begins_null (t : Target) : Begins t.dialect.null.toList := by
  cases t <;> exact ⟨_, _, rfl, rfl, by decide, by decide⟩

theorem begins_quote (t : Target) (s : String) : Begins (t.dialect.quote s).toList := by
  rw [Dialect.toList_quote]
  refine ⟨_, _, rfl, ?_⟩
  rcases delimiter_cases t with d | d <;> rw [d] <;> decide

/-- A number of the grammar is read as one in every dialect. -/
theorem readsNumber {cs : List Char} {v : Value} (h : Number cs v) :
    Begins cs ∧ ∀ size depth rest, Ends rest →
      value? t.dialect size (depth + 1) (cs ++ rest) = some (v, rest) := by
  refine ⟨begins_denotes (.number h), fun size depth rest stop => ?_⟩
  obtain ⟨c, cs, rfl, front⟩ := number_front h
  rw [List.cons_append, value?_number front, ← List.cons_append]
  exact number?_append h stop

theorem readsScalar_of_isPlain (t : Target) {s : Scalar} (h : s.IsPlain) : ReadsScalar t s := by
  cases s with
  | null => exact ⟨begins_null t, fun _ _ rest _ => value?_null t rest⟩
  | bool b =>
    refine ⟨?_, fun _ _ rest _ => value?_of_constant (constant?_bool t b rest)⟩
    cases t <;> cases b <;> exact ⟨_, _, rfl, rfl, by decide, by decide⟩
  | int i => exact readsNumber (number_toString h)
  | text s => exact ⟨begins_quote t s, fun _ _ rest stop => value?_string s stop⟩
  | _ => exact absurd h id

end Scalars

section Containers

variable {item? : List Char → Option (Value × List Char)}

/-- What stands between a key and its value is the mark with blanks around it. -/
theorem keySeparator_parts (t : Target) :
    ∃ before after, (∀ c ∈ before, isSpace c = true) ∧ (∀ c ∈ after, isSpace c = true) ∧
      Begins (mark t.dialect) ∧
      t.dialect.keySeparator.toList = before ++ (mark t.dialect ++ after) := by
  have blank : ∀ c ∈ [' '], isSpace c = true := List.forall_mem_singleton.mpr rfl
  cases t with
  | ruby | powershell =>
    exact ⟨[' '], [' '], blank, blank, ⟨'=', _, rfl, rfl, by decide, by decide⟩, rfl⟩
  | _ =>
    exact ⟨[], [' '], List.forall_mem_nil _, blank, ⟨':', _, rfl, rfl, by decide, by decide⟩, rfl⟩

/-- A key and its value are read up to the end of the value. -/
theorem pair?_append (key : String) {text rest : List Char} {v : Value} (front : Begins text)
    (value : item? (text ++ rest) = some (v, rest)) :
    pair? t.dialect item?
        ((t.dialect.quote key).toList ++ (t.dialect.keySeparator.toList ++ (text ++ rest))) =
      some ((.text key, v), rest) := by
  obtain ⟨before, after, hb, ha, begins, parts⟩ := keySeparator_parts t
  have closes : t.dialect.Closes (t.dialect.keySeparator.toList ++ (text ++ rest)) := by
    intro doubled eq
    cases t <;> cases doubled
    cases eq
  have atMark : skipSpaces (t.dialect.keySeparator.toList ++ (text ++ rest)) =
      mark t.dialect ++ (after ++ (text ++ rest)) := by
    rw [parts, List.append_assoc, skipSpaces_append hb, List.append_assoc]
    exact skipSpaces_of_begins (begins.append _)
  have atValue : skipSpaces (after ++ (text ++ rest)) = text ++ rest := by
    rw [skipSpaces_append ha]
    exact skipSpaces_of_begins (front.append rest)
  rw [pair?, string?_quote t key closes]
  simp only [Option.bind_some, atMark, isPrefixOf?_append, atValue, value]
  rfl

/-- Entries between braces are read up to the closing one. -/
theorem mappingBody?_commas {d : Dialect} {parts : List (List Char × Scalar × Value)}
    (nonempty : parts ≠ []) (reads : ∀ p ∈ parts, Reads (pair? d item?) p.1 p.2)
    {tail : List Char} (ht : ∀ c ∈ tail, isSpace c = true) (enough : parts.length ≤ size)
    (rest : List Char) :
    mappingBody? d size item? (commas (parts.map Prod.fst) ++ (tail ++ '\x7d' :: rest)) =
      some (.mapping (parts.map Prod.snd), rest) := by
  have entries := sequence?_commas (.inr rfl) nonempty reads ht enough rest
  obtain ⟨c, cs, front, -, -, notClose⟩ := begins_commas (.inr rfl) nonempty reads ht rest
  rw [front] at entries
  unfold mappingBody?
  rw [front]
  split
  · next eq =>
    cases eq
    exact absurd rfl notClose
  · rw [entries]
    rfl

theorem toList_join (entry : String) (entries : List String) :
    '\n' :: (Text.join ",\n" (entry :: entries)).toList =
      commas ((entry :: entries).map fun e => '\n' :: e.toList) := by
  induction entries generalizing entry with
  | nil => simp
  | cons next entries ih =>
    have others := ih next
    simp only [List.map_cons] at others ⊢
    rw [Text.join_cons_cons, commas_cons_cons, ← others]
    simp

/-- The characters of a block, with the blanks of its lines in front of the entries. -/
theorem toList_block (opening closing : String) (level : Int) {entries : List String}
    (nonempty : entries ≠ []) :
    (block opening closing level entries).toList =
      opening.toList ++ (commas (entries.map fun e => '\n' :: e.toList) ++
        ('\n' :: (pad level).toList ++ closing.toList)) := by
  obtain ⟨entry, entries, rfl⟩ := List.exists_cons_of_ne_nil nonempty
  rw [← toList_join]
  simp [block]

theorem eq_blank_of_mem_pad (level : Int) {c : Char} (h : c ∈ (pad level).toList) : c = ' ' := by
  rw [pad, String.toList_ofList] at h
  exact List.eq_of_mem_replicate h

theorem isSpace_pad (level : Int) {c : Char} (h : c ∈ '\n' :: (pad level).toList) :
    isSpace c = true := by
  rcases List.mem_cons.mp h with rfl | h
  · rfl
  · rw [eq_blank_of_mem_pad level h]
    rfl

end Containers

section Values

variable {leaf : Scalar → Prop} {g : Graph} {left : Nat} {level : Int}

/-- A block is longer than each of its entries. -/
theorem length_lt_block (opening closing : String) (level : Int) {entries : List String}
    {entry : String} (mem : entry ∈ entries) :
    entry.toList.length < (block opening closing level entries).toList.length := by
  have line := (length_le_commas (List.mem_map_of_mem (f := fun e => '\n' :: e.toList) mem)).1
  rw [toList_block opening closing level (List.ne_nil_of_mem mem)]
  simp only [List.length_append, List.length_cons] at line ⊢
  omega

/-- A block has a character for each of its entries. -/
theorem length_le_block {α : Type} {items : List α} {opening closing : String}
    (text : α → String) :
    items.length ≤ (block opening closing level (items.map text)).toList.length := by
  cases items with
  | nil => exact Nat.zero_le _
  | cons item items =>
    have lines := (length_le_commas (List.mem_map_of_mem (f := fun e => '\n' :: e.toList)
      (List.mem_map_of_mem (f := text) (List.mem_cons_self (a := item) (l := items))))).2
    rw [toList_block opening closing level (by simp)]
    simp only [List.length_append, List.length_cons, List.length_map] at lines ⊢
    omega

/-- An entry of a block is a token behind blanks. -/
theorem reads_line {α : Type} {token? : List Char → Option (α × List Char)} {text : String} {v : α}
    (front : Begins text.toList)
    (token : ∀ rest, Ends rest → token? (text.toList ++ rest) = some (v, rest)) :
    Reads token? ('\n' :: (pad level ++ text).toList) v := by
  have reads := Reads.of_token token front (fun c hc => isSpace_pad level hc)
    (List.forall_mem_nil _)
  simpa using reads

theorem begins_block {opening : String} (h : Begins opening.toList) (closing : String)
    (entries : List String) : Begins (block opening closing level entries).toList := by
  unfold block
  split
  · rw [String.toList_append]
    exact h.append _
  · simp only [String.toList_append, List.append_assoc]
    exact h.append _

/-- The reader takes the text as a whole where a token ends, with any bound on sizes and depths that
is large enough for the text. -/
def Restores (t : Target) (text : String) (v : Value) : Prop :=
  Begins text.toList ∧ ∀ (size depth : Nat) {rest : List Char},
    text.toList.length ≤ size → text.toList.length < depth → Ends rest →
    value? t.dialect size depth (text.toList ++ rest) = some (v, rest)

theorem ReadsScalar.restores {s : Scalar} (h : ReadsScalar t s) :
    Restores t (scalar t.dialect s) (.scalar s) := by
  refine ⟨h.1, fun size depth rest _ deep stop => ?_⟩
  obtain ⟨depth, rfl⟩ : ∃ k, depth = k + 1 := ⟨depth - 1, by omega⟩
  exact h.2 size depth rest stop

/-- A block of items that are read back is read back as a list. -/
theorem restores_list {items : List Value} {text : Value → String} {value : Value → Value}
    (parts : ∀ item ∈ items, Restores t (text item) (value item)) :
    Restores t (block "[" "]" level (items.map fun item => pad (level + 1) ++ text item))
      (.list (items.map value)) := by
  refine ⟨begins_block ⟨'[', [], rfl, rfl, by decide, by decide⟩ _ _,
    fun size depth rest enough deep _ => ?_⟩
  obtain ⟨depth, rfl⟩ : ∃ k, depth = k + 1 := ⟨depth - 1, by omega⟩
  by_cases empty : items = []
  · subst empty
    have brackets : (block "[" "]" level []).toList = ['[', ']'] := by simp [block]
    rw [List.map_nil, brackets]
    exact value?_list rfl
  · have reads : ∀ p ∈ items.map fun item =>
        ('\n' :: (pad (level + 1) ++ text item).toList, value item),
        Reads (value? t.dialect size depth) p.1 p.2 := by
      intro p hp
      obtain ⟨item, mem, rfl⟩ := List.mem_map.mp hp
      obtain ⟨front, token⟩ := parts item mem
      have shorter := length_lt_block "[" "]" level
        (List.mem_map_of_mem (f := fun item => pad (level + 1) ++ text item) mem)
      rw [String.toList_append, List.length_append] at shorter
      exact reads_line front fun rest stop => token size depth (by omega) (by omega) stop
    have body := listBody?_commas (by simpa using empty) reads
      (fun c hc => isSpace_pad level hc)
      (by simpa using Nat.le_trans (length_le_block _) enough) rest
    rw [toList_block "[" "]" level (by simpa using empty)]
    simpa [Function.comp_def] using value?_list body

/-- A block of keys and values that are read back is read back as a mapping. -/
theorem restores_mapping {entries : List (Scalar × Value)} {text : Scalar × Value → String}
    {value : Scalar × Value → Value} (keys : ∀ entry ∈ entries, ∃ s, entry.1 = .text s)
    (parts : ∀ entry ∈ entries, Restores t (text entry) (value entry)) :
    Restores t (block "\x7b" "\x7d" level (entries.map fun entry => pad (level + 1) ++
        (t.dialect.quote entry.1.display ++ (t.dialect.keySeparator ++ text entry))))
      (.mapping (entries.map fun entry => (entry.1, value entry))) := by
  refine ⟨begins_block ⟨'\x7b', [], rfl, rfl, by decide, by decide⟩ _ _,
    fun size depth rest enough deep _ => ?_⟩
  obtain ⟨depth, rfl⟩ : ∃ k, depth = k + 1 := ⟨depth - 1, by omega⟩
  by_cases empty : entries = []
  · subst empty
    have brackets : (block "\x7b" "\x7d" level []).toList = ['\x7b', '\x7d'] := by simp [block]
    rw [List.map_nil, brackets]
    exact value?_mapping rfl
  · have reads : ∀ p ∈ entries.map fun entry =>
        ('\n' :: (pad (level + 1) ++ (t.dialect.quote entry.1.display ++
          (t.dialect.keySeparator ++ text entry))).toList, (entry.1, value entry)),
        Reads (pair? t.dialect (value? t.dialect size depth)) p.1 p.2 := by
      intro p hp
      obtain ⟨entry, mem, rfl⟩ := List.mem_map.mp hp
      obtain ⟨key, isText⟩ := keys entry mem
      obtain ⟨front, token⟩ := parts entry mem
      have shorter := length_lt_block "\x7b" "\x7d" level
        (List.mem_map_of_mem (f := fun entry : Scalar × Value => pad (level + 1) ++
          (t.dialect.quote entry.1.display ++ (t.dialect.keySeparator ++ text entry))) mem)
      simp only [String.toList_append, List.length_append] at shorter
      dsimp only
      rw [isText]
      refine reads_line ?_ fun rest stop => ?_
      · rw [String.toList_append]
        exact (begins_quote t key).append _
      · have value := token size depth (by omega) (by omega) stop
        simpa [Scalar.display] using pair?_append key front value
    have body := mappingBody?_commas (by simpa using empty) reads
      (fun c hc => isSpace_pad level hc)
      (by simpa using Nat.le_trans (length_le_block _) enough) rest
    rw [toList_block "\x7b" "\x7d" level (by simpa using empty)]
    simpa [Function.comp_def] using value?_mapping body

/-- A literal is read back as the value that was written, as far as there were levels left. -/
theorem restores_render (scalars : ∀ s, leaf s → ReadsScalar t s) (g : Graph) {v : Value}
    (h : v.Built leaf) (left : Nat) (level : Int) :
    Restores t (render t.dialect g left level v) (v.prune left) := by
  induction left generalizing v level with
  | zero => exact ReadsScalar.restores (readsScalar_of_isPlain t (s := .null) trivial)
  | succ left ih =>
    cases h with
    | scalar h => exact (scalars _ h).restores
    | list h => exact restores_list fun item mem => ih (h item mem) (level + 1)
    | mapping keys h =>
      simp only [render, Value.expose_mapping, String.append_assoc]
      exact restores_mapping keys fun entry mem => ih (h entry mem) (level + 1)

/-- Reading a whole text. -/
theorem Restores.read? {text : String} {v : Value} (h : Restores t text v) :
    Literal.read? t.dialect text = some v := by
  obtain ⟨front, read⟩ := h
  have value := read (text.toList.length + 1) (text.toList.length + 1) (by omega) (by omega)
    (starts_nil _)
  rw [List.append_nil] at value
  rw [Literal.read?, skipSpaces_of_begins front]
  simp [value]

end Values

section Documents

variable {leaf : Scalar → Prop} {g : Graph}

theorem scalarSteps_of_isShort {s : Scalar} (h : s.IsShort) : scalarSteps s = [] := by
  rw [scalarSteps, scalarFault?_of_isShort h]

/-- The walk over a value whose scalars can be written meets truncations only. -/
theorem fail_not_mem_steps (writable : ∀ s, leaf s → scalarSteps s = []) {v : Value}
    (h : v.Built leaf) (maxDepth : Int) (left : Nat) (fault : Fault) :
    Step.fail fault ∉ steps g maxDepth left v := by
  induction left generalizing v with
  | zero => simp [steps]
  | succ left ih =>
    cases h with
    | scalar h => simp [steps, writable _ h]
    | list h =>
      simp only [steps, Value.expose_list, List.mem_flatMap, not_exists, not_and]
      exact fun item mem => ih (h item mem)
    | mapping keys h =>
      simp only [steps, Value.expose_mapping, List.mem_flatMap, not_exists, not_and]
      intro entry mem
      obtain ⟨key, isText⟩ := keys entry mem
      rw [isText]
      exact ih (h entry mem)

theorem result_serialize (target : Target) {v : Value} (h : v.Built Scalar.IsJson)
    (indent maxDepth : Int) :
    (serialize target ⟨g, v⟩ indent maxDepth).result =
      .ok (render target.dialect g (levelsLeft indent maxDepth) indent v) :=
  Step.result_play_of_forall _ _ fun fault =>
    fail_not_mem_steps (fun _ h => scalarSteps_of_isShort h.isShort) h _ _ fault

/-- A bound on the containers as a number of levels. -/
theorem nestedWithin_levelsLeft {v : Value} {indent maxDepth : Int}
    (nested : v.NestedWithin (maxDepth - indent)) :
    v.NestedWithin ((levelsLeft indent maxDepth : Int) - 1) := by
  have := nested.nonneg
  rwa [levelsLeft, show (((maxDepth - indent + 1).toNat : Nat) : Int) - 1 = maxDepth - indent by
    omega]

/-- A value of null, truth values, whole numbers that can be written, texts, lists and mappings of
texts is written in every dialect, and the text is read back as the value when no part of it lies
beyond the depth bound. Two such values with one text are the same value. -/
theorem serialize_reads_back (target : Target) (g : Graph) {v : Value}
    (plain : v.Built Scalar.IsPlain) {indent maxDepth : Int}
    (nested : v.NestedWithin (maxDepth - indent)) :
    (∃ text, (serialize target ⟨g, v⟩ indent maxDepth).result = .ok text ∧
      Literal.read? target.dialect text = some v) ∧
    ∀ w : Value, w.Built Scalar.IsPlain → w.NestedWithin (maxDepth - indent) →
      (serialize target ⟨g, w⟩ indent maxDepth).result =
        (serialize target ⟨g, v⟩ indent maxDepth).result → w = v := by
  have reads : ∀ w : Value, w.Built Scalar.IsPlain → w.NestedWithin (maxDepth - indent) →
      ∃ text, (serialize target ⟨g, w⟩ indent maxDepth).result = .ok text ∧
        Literal.read? target.dialect text = some w := by
    intro w plain nested
    have read := (restores_render (t := target) (fun _ => readsScalar_of_isPlain target) g plain
      (levelsLeft indent maxDepth) indent).read?
    rw [Value.prune_of_nestedWithin (nestedWithin_levelsLeft nested)] at read
    exact ⟨_, result_serialize target (plain.mono fun _ => Scalar.IsPlain.isJson) indent maxDepth,
      read⟩
  refine ⟨reads v plain nested, fun w plain' nested' same => ?_⟩
  obtain ⟨text, written, read⟩ := reads v plain nested
  obtain ⟨text', written', read'⟩ := reads w plain' nested'
  rw [written, written', Except.ok.injEq] at same
  rw [same, read, Option.some.injEq] at read'
  exact read'.symm

/-- A mapping whose texts hold quotes, backslashes, newlines, brackets and separators. -/
def hostile : Value :=
  .object [("\"'\\n\n => [", .list [.text "',\n\"]\x7d\\", .int (-10), .bool true]), ("", .null)]

/-- The conditions of `serialize_reads_back` hold for `hostile` in the dialect without escapes. -/
theorem hostile_reads_back :
    hostile.Built Scalar.IsPlain ∧ hostile.NestedWithin (3 - 1) ∧
      ∃ text, (serialize .powershell ⟨[], hostile⟩ 1 3).result = .ok text ∧
        Literal.read? Target.powershell.dialect text = some hostile := by
  have plain : hostile.Built Scalar.IsPlain := by
    have short : (Nat.toDigits 10 10).length ≤ Json.maxIntegerDigits := by decide
    simpa [hostile, Value.object, Value.text, Value.int, Value.bool, Value.null,
      Scalar.IsPlain] using short
  have nested : hostile.NestedWithin (3 - 1) := by
    simp [hostile, Value.object, Value.text, Value.int, Value.bool, Value.null]
  exact ⟨plain, nested, (serialize_reads_back .powershell [] plain nested).1⟩

end Documents

end RequestWriter.Literal
