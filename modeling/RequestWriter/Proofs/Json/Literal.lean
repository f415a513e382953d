import RequestWriter.Proofs.Json.Acceptance
import RequestWriter.Proofs.Json.Denoted
import RequestWriter.Proofs.Literal.RoundTrip

/-!
# Literals of JSON as bodies

The dialect of JSON escapes the backslash, the quote and the newline, and no other character. A
strict reader refuses every control character inside a string, so a literal of that dialect is a
body for the same value exactly when none of its texts and keys holds a control character that has
no escape. A literal that is not, is opaque as a body.

The reader decides each piece of a literal in one of two ways, so both are carried through one
induction.
-/

namespace RequestWriter

/-- The property of the text, if the scalar is one. -/
def Scalar.AllTexts (p : String → Prop) : Scalar → Prop
  | .text s => p s
  | _ => True

/-- The texts of the value and the keys of its mappings have a property. -/
inductive Value.AllTexts (p : String → Prop) : Value → Prop
  | scalar {s : Scalar} (h : s.AllTexts p) : AllTexts p (.scalar s)
  | list {items : List Value} (h : ∀ v ∈ items, AllTexts p v) : AllTexts p (.list items)
  | mapping {entries : List (Scalar × Value)} (keys : ∀ entry ∈ entries, entry.1.AllTexts p)
      (h : ∀ entry ∈ entries, AllTexts p entry.2) : AllTexts p (.mapping entries)

namespace Value

variable {p : String → Prop}

@[simp] theorem allTexts_scalar_iff {s : Scalar} : (Value.scalar s).AllTexts p ↔ s.AllTexts p :=
  ⟨fun | .scalar h => h, .scalar⟩

@[simp] theorem allTexts_list_iff {items : List Value} :
    (Value.list items).AllTexts p ↔ ∀ v ∈ items, v.AllTexts p :=
  ⟨fun | .list h => h, .list⟩

@[simp] theorem allTexts_mapping_iff {entries : List (Scalar × Value)} :
    (Value.mapping entries).AllTexts p ↔
      ∀ entry ∈ entries, entry.1.AllTexts p ∧ entry.2.AllTexts p :=
  ⟨fun | .mapping keys h => fun entry mem => ⟨keys entry mem, h entry mem⟩,
    fun h => .mapping (fun entry mem => (h entry mem).1) fun entry mem => (h entry mem).2⟩

end Value

namespace Json

open Grammar

/-- The text holds no control character but the newline. -/
def IsClean (s : String) : Prop := ∀ c ∈ s.toList, c.toNat < 0x20 → c = '\n'

/-- The reader of a piece in front of the end of a token: it takes the piece as a whole if a
condition holds, and refuses it otherwise. -/
structure Decides {α : Type} (token? : List Char → Option (α × List Char)) (ok : Prop)
    (text : List Char) (v : α) : Prop where
  begins : Begins text
  reads : ok → ∀ rest, Ends rest → token? (text ++ rest) = some (v, rest)
  refuses : ¬ok → ∀ rest, Ends rest → token? (text ++ rest) = none

section Strings

/-- A character of a literal is read as itself, but for a control character without an escape. -/
theorem stringBody?_escapeChar (c : Char) (cs : List Char) (clean : c.toNat < 0x20 → c = '\n') :
    stringBody? none (Target.json.dialect.escapeChar c ++ cs) =
      (stringBody? none cs).map fun (s, rest) => (c :: s, rest) := by
  by_cases isBackslash : c = '\\'
  · subst isBackslash
    simp [Dialect.escapeChar, Target.dialect, stringBody?, escapeValue?]
  · by_cases isQuote : c = '"'
    · subst isQuote
      simp [Dialect.escapeChar, Target.dialect, stringBody?, escapeValue?]
    · by_cases isNewline : c = '\n'
      · subst isNewline
        simp [Dialect.escapeChar, Target.dialect, stringBody?, escapeValue?]
      · have printable : ¬c.toNat < 0x20 := fun low => isNewline (clean low)
        simp [Dialect.escapeChar, Target.dialect, stringBody?, isBackslash, isQuote, isNewline,
          printable]

theorem stringBody?_control {c : Char} (low : c.toNat < 0x20) (other : c ≠ '\n') (cs : List Char) :
    stringBody? none (Target.json.dialect.escapeChar c ++ cs) = none := by
  have noBackslash : c ≠ '\\' := by
    rintro rfl
    exact absurd low (by decide)
  have noQuote : c ≠ '"' := by
    rintro rfl
    exact absurd low (by decide)
  simp [Dialect.escapeChar, Target.dialect, stringBody?, noBackslash, noQuote, other, low]

/-- A string of a literal is read up to its closing quote if it is clean. -/
theorem stringBody?_escaped (s rest : List Char) (clean : ∀ c ∈ s, c.toNat < 0x20 → c = '\n') :
    stringBody? none (s.flatMap Target.json.dialect.escapeChar ++ '"' :: rest) =
      some (s, rest) := by
  induction s with
  | nil => simp [stringBody?]
  | cons c s ih =>
    rw [List.forall_mem_cons] at clean
    rw [List.flatMap_cons, List.append_assoc, stringBody?_escapeChar c _ clean.1, ih clean.2,
      Option.map_some]

theorem stringBody?_unclean (s rest : List Char)
    (unclean : ¬∀ c ∈ s, c.toNat < 0x20 → c = '\n') :
    stringBody? none (s.flatMap Target.json.dialect.escapeChar ++ rest) = none := by
  induction s with
  | nil => exact absurd (List.forall_mem_nil _) unclean
  | cons c s ih =>
    rw [List.flatMap_cons, List.append_assoc]
    by_cases clean : c.toNat < 0x20 → c = '\n'
    · have others : ¬∀ c ∈ s, c.toNat < 0x20 → c = '\n' :=
        fun all => unclean (List.forall_mem_cons.mpr ⟨clean, all⟩)
      rw [stringBody?_escapeChar c _ clean, ih others, Option.map_none]
    · obtain ⟨low, other⟩ := Classical.not_imp.mp clean
      exact stringBody?_control low other _

theorem toList_quote_append (s : String) (rest : List Char) :
    (Target.json.dialect.quote s).toList ++ rest =
      '"' :: (s.toList.flatMap Target.json.dialect.escapeChar ++ '"' :: rest) := by
  rw [Dialect.toList_quote]
  simp [Target.dialect]

end Strings

section Scalars

variable {size depth : Nat}

theorem decides_of_reads {text : List Char} {v : Value} {ok : Prop} (always : ok)
    (begins : Begins text)
    (reads : ∀ rest, Ends rest → value? size depth (text ++ rest) = some (v, rest)) :
    Decides (value? size depth) ok text v :=
  ⟨begins, fun _ => reads, fun never => absurd always never⟩

theorem decides_text (s : String) :
    Decides (value? size (depth + 1)) (IsClean s) (Target.json.dialect.quote s).toList
      (.text s) := by
  refine ⟨Literal.begins_quote .json s, fun clean rest _ => ?_, fun unclean rest _ => ?_⟩
  · rw [toList_quote_append, value?, stringBody?_escaped _ _ clean]
    simp
  · rw [toList_quote_append, value?, stringBody?_unclean _ _ unclean]
    rfl

theorem decides_scalar {s : Scalar} (plain : s.IsPlain) :
    Decides (value? size (depth + 1)) (s.AllTexts IsClean)
      (Literal.scalar Target.json.dialect s).toList (.scalar s) := by
  cases s with
  | null => exact decides_of_reads trivial (Literal.begins_null .json) fun _ _ => rfl
  | bool b =>
    cases b
    · exact decides_of_reads trivial ⟨'f', _, rfl, rfl, by decide, by decide⟩ fun _ _ => rfl
    · exact decides_of_reads trivial ⟨'t', _, rfl, rfl, by decide, by decide⟩ fun _ _ => rfl
  | int i =>
    have number := number_toString plain
    refine decides_of_reads trivial (begins_denotes (.number number)) fun rest stop => ?_
    obtain ⟨c, cs, digits, front⟩ := number_front number
    have read := number?_append number stop
    rw [digits, List.cons_append] at read
    rw [Literal.scalar, digits, List.cons_append, value?_number front, read]
    rfl
  | text s => exact decides_text s
  | _ => exact absurd plain id

end Scalars

section Containers

variable {α σ : Type} {token? : List Char → Option (α × List Char)} {close : Char} {level : Int}
variable {text : σ → String} {value : σ → α} {ok : σ → Prop}

/-- The lines of a block, each one an entry behind a newline and the blanks of its level. -/
def lines (level : Int) (entries : List String) : List Char :=
  commas (entries.map fun entry => '\n' :: (Literal.pad level ++ entry).toList)

/-- A line is found behind its blanks. -/
theorem skipSpaces_line {entry : String} (front : Begins entry.toList) (rest : List Char) :
    skipSpaces ('\n' :: (Literal.pad level ++ entry).toList ++ rest) = entry.toList ++ rest := by
  have shape : '\n' :: (Literal.pad level ++ entry).toList ++ rest =
      '\n' :: (Literal.pad level).toList ++ (entry.toList ++ rest) := by simp
  rw [shape, skipSpaces_append fun c hc => Literal.isSpace_pad level hc]
  exact skipSpaces_of_begins (front.append rest)

/-- Lines between commas are read up to the closing mark if each one is, and are refused if one of
them is. -/
theorem sequence?_lines (level : Int) (value : σ → α) (hclose : close = ']' ∨ close = '\x7d')
    {parts : List σ} (nonempty : parts ≠ [])
    (decides : ∀ p ∈ parts, Decides token? (ok p) (text p).toList (value p))
    {tail : List Char} (blank : ∀ c ∈ tail, isSpace c = true) {bound : Nat}
    (enough : parts.length ≤ bound) (rest : List Char) :
    Begins (skipSpaces (lines level (parts.map text) ++ (tail ++ close :: rest))) ∧
      ((∀ p ∈ parts, ok p) → sequence? token? close bound
        (skipSpaces (lines level (parts.map text) ++ (tail ++ close :: rest))) =
          some (parts.map value, rest)) ∧
      ((¬∀ p ∈ parts, ok p) → sequence? token? close bound
        (skipSpaces (lines level (parts.map text) ++ (tail ++ close :: rest))) = none) := by
  have notBlank : isSpace close = false := by
    rcases hclose with rfl | rfl <;> rfl
  have comma : ',' ≠ close := by
    rcases hclose with rfl | rfl <;> decide
  induction parts generalizing bound with
  | nil => exact absurd rfl nonempty
  | cons p parts ih =>
    obtain ⟨bound, rfl⟩ : ∃ k, bound = k + 1 := ⟨bound - 1, by simp at enough; omega⟩
    have first := decides p List.mem_cons_self
    rw [List.forall_mem_cons]
    cases parts with
    | nil =>
      have stop := ends_append blank (ends_close hclose rest)
      have left : skipSpaces (tail ++ close :: rest) = close :: rest := by
        rw [skipSpaces_append blank]
        exact skipSpaces_cons notBlank rest
      simp only [lines, List.map_cons, List.map_nil, commas_singleton, skipSpaces_line first.begins]
      refine ⟨first.begins.append _, fun all => ?_, fun some => ?_⟩
      · rw [sequence?, first.reads all.1 _ stop]
        simp [left]
      · have bad : ¬ok p := fun good => some ⟨good, List.forall_mem_nil _⟩
        rw [sequence?, first.refuses bad _ stop]
        rfl
    | cons q parts =>
      obtain ⟨-, all', some'⟩ := ih (by simp) (fun p hp => decides p (List.mem_cons_of_mem _ hp))
        (show (q :: parts).length ≤ bound by simp at enough ⊢; omega)
      have shape : lines level ((p :: q :: parts).map text) ++ (tail ++ close :: rest) =
          '\n' :: (Literal.pad level ++ text p).toList ++
            ',' :: (lines level ((q :: parts).map text) ++ (tail ++ close :: rest)) := by
        simp [lines, commas_cons_cons]
      rw [shape, skipSpaces_line first.begins]
      generalize lines level ((q :: parts).map text) ++ (tail ++ close :: rest) = behind at *
      have stop : Ends (',' :: behind) := ends_cons (.inl rfl) behind
      have left : skipSpaces (',' :: behind) = ',' :: behind :=
        skipSpaces_cons rfl behind
      refine ⟨first.begins.append _, fun all => ?_, fun some => ?_⟩
      · rw [sequence?, first.reads all.1 _ stop]
        simp [left, comma, all' all.2]
      · by_cases good : ok p
        · have others := some' fun others => some ⟨good, others⟩
          rw [sequence?, first.reads good _ stop]
          simp [left, comma, others]
        · rw [sequence?, first.refuses good _ stop]
          rfl

theorem toList_block (opening closing : String) {entries : List String} (nonempty : entries ≠ []) :
    (Literal.block opening closing level
        (entries.map fun entry => Literal.pad (level + 1) ++ entry)).toList =
      opening.toList ++ (lines (level + 1) entries ++
        ('\n' :: (Literal.pad level).toList ++ closing.toList)) := by
  rw [Literal.toList_block opening closing level (by simpa using nonempty)]
  simp [lines, Function.comp_def]

/-- A line is shorter than its block. -/
theorem length_line_lt (opening closing : String) (level : Int) {entries : List String}
    {entry : String} (mem : entry ∈ entries) :
    entry.toList.length < (Literal.block opening closing level
      (entries.map fun entry => Literal.pad (level + 1) ++ entry)).toList.length := by
  have line := Literal.length_lt_block opening closing level
    (List.mem_map_of_mem (f := fun entry => Literal.pad (level + 1) ++ entry) mem)
  rw [String.toList_append, List.length_append] at line
  omega

theorem length_lines_le (opening closing : String) (level : Int) (entries : List String) :
    entries.length ≤ (Literal.block opening closing level
      (entries.map fun entry => Literal.pad (level + 1) ++ entry)).toList.length :=
  Literal.length_le_block _

variable {item? : List Char → Option (Value × List Char)} {size depth : Nat}

/-- Behind an opening bracket, a text that does not begin with the closing one is a row of items. -/
theorem listBody?_of_begins {cs : List Char} (front : Begins (skipSpaces cs)) :
    listBody? size item? cs = (sequence? item? ']' size (skipSpaces cs)).map
      fun (vs, rest) => (.list vs, rest) := by
  obtain ⟨c, rest, eq, -, notClose, -⟩ := front
  rw [listBody?, eq]
  split
  · next eq =>
    cases eq
    exact absurd rfl notClose
  · rfl

theorem objectBody?_of_begins {cs : List Char} (front : Begins (skipSpaces cs)) :
    objectBody? size item? cs = (sequence? (member? item?) '\x7d' size (skipSpaces cs)).map
      fun (members, rest) => (.mapping (Entries.ofPairs members), rest) := by
  obtain ⟨c, rest, eq, -, -, notClose⟩ := front
  rw [objectBody?, eq]
  split
  · next eq =>
    cases eq
    exact absurd rfl notClose
  · rfl

/-- A block of lines is read if each of its lines is read. Between the brackets stands a row of
parts, and `made` is the value of the parts. -/
theorem decides_block (level : Int) (made : List α → Value) {opening closing : String} {mark : Char}
    (opens : opening.toList = [mark]) (closes : closing.toList = [close])
    (hclose : close = ']' ∨ close = '\x7d') (front : Begins [mark])
    (nothing : ∀ rest, value? size (depth + 1) (mark :: close :: rest) = some (made [], rest))
    (row : ∀ cs, Begins (skipSpaces cs) → value? size (depth + 1) (mark :: cs) =
      (sequence? token? close size (skipSpaces cs)).map fun (vs, rest) => (made vs, rest))
    {parts : List σ} (decides : ∀ p ∈ parts, Decides token? (ok p) (text p).toList (value p))
    (enough : parts.length ≤ size) :
    Decides (value? size (depth + 1)) (∀ p ∈ parts, ok p)
      (Literal.block opening closing level
        ((parts.map text).map fun entry => Literal.pad (level + 1) ++ entry)).toList
      (made (parts.map value)) := by
  have begins : Begins (Literal.block opening closing level
      ((parts.map text).map fun entry => Literal.pad (level + 1) ++ entry)).toList :=
    Literal.begins_block (opens ▸ front) _ _
  by_cases empty : parts = []
  · subst empty
    have brackets : (Literal.block opening closing level []).toList = [mark, close] := by
      simp [Literal.block, opens, closes]
    refine decides_of_reads (List.forall_mem_nil _) begins fun rest _ => ?_
    rw [List.map_nil, List.map_nil, brackets]
    exact nothing rest
  · have body (rest : List Char) := sequence?_lines (level + 1) value hclose
      empty decides (fun c hc => Literal.isSpace_pad level hc) enough rest
    have unfolded (rest : List Char) : value? size (depth + 1) ((Literal.block opening closing level
        ((parts.map text).map fun entry => Literal.pad (level + 1) ++ entry)).toList ++ rest) =
          (sequence? token? close size (skipSpaces (lines (level + 1)
            (parts.map text) ++ ('\n' :: (Literal.pad level).toList ++ close :: rest)))).map
              fun (vs, rest) => (made vs, rest) := by
      rw [← row _ (body rest).1, toList_block opening closing (by simpa using empty), opens, closes]
      simp
    refine ⟨begins, fun all rest _ => ?_, fun some rest _ => ?_⟩
    · rw [unfolded, (body rest).2.1 all]
      rfl
    · rw [unfolded, (body rest).2.2 some]
      rfl

/-- A block of items is read as a list if each of its items is read. -/
theorem decides_list {items : List Value} {text : Value → String} {ok : Value → Prop}
    (decides : ∀ v ∈ items, Decides (value? size depth) (ok v) (text v).toList v)
    (enough : items.length ≤ size) :
    Decides (value? size (depth + 1)) (∀ v ∈ items, ok v)
      (Literal.block "[" "]" level
        ((items.map text).map fun entry => Literal.pad (level + 1) ++ entry)).toList
      (.list items) := by
  have row (cs : List Char) (front : Begins (skipSpaces cs)) : value? size (depth + 1) ('[' :: cs) =
      (sequence? (value? size depth) ']' size (skipSpaces cs)).map
        fun (vs, rest) => (.list vs, rest) := by
    rw [← listBody?_of_begins front]
    simp [value?]
  have block := decides_block level .list (show "[".toList = ['['] from rfl)
    (show "]".toList = [']'] from rfl) (.inl rfl) ⟨'[', [], rfl, rfl, by decide, by decide⟩
    (fun _ => rfl) row decides enough
  rwa [List.map_id'] at block

/-- A key and its value are read if the key is clean and the value is read. -/
theorem decides_member (key : String) {text : String} {v : Value} {ok : Prop}
    (h : Decides item? ok text.toList v) :
    Decides (member? item?) (IsClean key ∧ ok)
      (Target.json.dialect.quote key ++ Target.json.dialect.keySeparator ++ text).toList
      (.text key, v) := by
  have shape (rest : List Char) : (Target.json.dialect.quote key ++
      Target.json.dialect.keySeparator ++ text).toList ++ rest =
        '"' :: (key.toList.flatMap Target.json.dialect.escapeChar ++
          '"' :: ':' :: ' ' :: (text.toList ++ rest)) := by
    rw [String.toList_append, String.toList_append, List.append_assoc, List.append_assoc,
      toList_quote_append]
    rfl
  have atValue (rest : List Char) : skipSpaces (' ' :: (text.toList ++ rest)) =
      text.toList ++ rest := skipSpaces_of_begins (h.begins.append rest)
  have colon (cs : List Char) : skipSpaces (':' :: cs) = ':' :: cs :=
    skipSpaces_cons rfl cs
  refine ⟨?_, fun good rest stop => ?_, fun bad rest stop => ?_⟩
  · rw [String.toList_append, String.toList_append, List.append_assoc]
    exact (Literal.begins_quote .json key).append _
  · rw [shape, member?, stringBody?_escaped _ _ good.1]
    simp [colon, atValue, h.reads good.2 rest stop]
  · rw [shape, member?]
    by_cases clean : IsClean key
    · have refused : ¬ok := fun good => bad ⟨clean, good⟩
      rw [stringBody?_escaped _ _ clean]
      simp [colon, atValue, h.refuses refused rest stop]
    · rw [stringBody?_unclean _ _ clean]
      rfl

/-- A block of keys and values is read as a mapping if each of them is read. -/
theorem decides_mapping {entries : List (Scalar × Value)} {text : Scalar × Value → String}
    {ok : Scalar × Value → Prop} (keys : ∀ entry ∈ entries, ∃ s, entry.1 = .text s)
    (nodup : (entries.map Prod.fst).Nodup)
    (decides : ∀ entry ∈ entries,
      Decides (member? (value? size depth)) (ok entry) (text entry).toList entry)
    (enough : entries.length ≤ size) :
    Decides (value? size (depth + 1)) (∀ entry ∈ entries, ok entry)
      (Literal.block "\x7b" "\x7d" level
        ((entries.map text).map fun entry => Literal.pad (level + 1) ++ entry)).toList
      (.mapping entries) := by
  have row (cs : List Char) (front : Begins (skipSpaces cs)) :
      value? size (depth + 1) ('\x7b' :: cs) =
        (sequence? (member? (value? size depth)) '\x7d' size (skipSpaces cs)).map
          fun (members, rest) => (.mapping (Entries.ofPairs members), rest) := by
    rw [← objectBody?_of_begins front]
    simp [value?]
  have block := decides_block level (fun members => .mapping (Entries.ofPairs members))
    (show "\x7b".toList = ['\x7b'] from rfl) (show "\x7d".toList = ['\x7d'] from rfl)
    (.inr rfl) ⟨'\x7b', [], rfl, rfl, by decide, by decide⟩ (fun _ => rfl) row decides enough
  rwa [List.map_id', Entries.ofPairs_of_texts keys nodup] at block

end Containers

section Values

variable {size depth left : Nat}

/-- The literal of a value in the dialect of JSON. -/
abbrev literal (g : Graph) (left : Nat) (level : Int) (v : Value) : String :=
  Literal.render Target.json.dialect g left level v

/-- The line of an entry, without the blanks in front. -/
def entryLine (g : Graph) (left : Nat) (level : Int) (entry : Scalar × Value) : String :=
  Target.json.dialect.quote entry.1.display ++ Target.json.dialect.keySeparator ++
    literal g left level entry.2

/-- The literal of a value is read as the value if its texts and keys are clean, and is refused if
one of them is not. -/
theorem decides_render {v : Value} (plain : v.Built Scalar.IsPlain) (distinct : v.DistinctKeys)
    (nested : v.NestedWithin (left - 1)) (g : Graph) (level : Int)
    (enough : (literal g left level v).toList.length ≤ size) (deep : left ≤ depth) :
    Decides (value? size depth) (v.AllTexts IsClean) (literal g left level v).toList v := by
  induction left generalizing v level depth with
  | zero =>
    have := nested.nonneg
    omega
  | succ left ih =>
    obtain ⟨depth, rfl⟩ : ∃ k, depth = k + 1 := ⟨depth - 1, by omega⟩
    have levels : ((left + 1 : Nat) : Int) - 1 - 1 = left - 1 := by omega
    cases plain with
    | scalar plain =>
      rw [Value.allTexts_scalar_iff]
      exact decides_scalar plain
    | @list items plain =>
      have shape : literal g (left + 1) level (.list items) =
          Literal.block "[" "]" level ((items.map (literal g left (level + 1))).map
            fun entry => Literal.pad (level + 1) ++ entry) := by
        simp [literal, Literal.render, Function.comp_def]
      rw [shape] at enough ⊢
      rw [Value.allTexts_list_iff]
      refine decides_list (fun v mem => ?_) ?_
      · have shorter := length_line_lt "[" "]" level
          (List.mem_map_of_mem (f := literal g left (level + 1)) mem)
        exact ih (plain v mem) (distinct.item mem) (levels ▸ nested.item mem) _ (by omega)
          (by omega)
      · have count := length_lines_le "[" "]" level (items.map (literal g left (level + 1)))
        rw [List.length_map] at count
        omega
    | @mapping entries keys plain =>
      have shape : literal g (left + 1) level (.mapping entries) =
          Literal.block "\x7b" "\x7d" level ((entries.map (entryLine g left (level + 1))).map
            fun entry => Literal.pad (level + 1) ++ entry) := by
        simp [literal, Literal.render, entryLine, Function.comp_def, String.append_assoc]
      rw [shape] at enough ⊢
      rw [Value.allTexts_mapping_iff]
      refine decides_mapping keys distinct.nodup (fun entry mem => ?_) ?_
      · have shorter := length_line_lt "\x7b" "\x7d" level
          (List.mem_map_of_mem (f := entryLine g left (level + 1)) mem)
        have inLine : (literal g left (level + 1) entry.2).toList.length ≤
            (entryLine g left (level + 1) entry).toList.length := by
          simp only [entryLine, String.toList_append, List.length_append]
          omega
        have inner := ih (plain entry mem) (distinct.entry mem) (levels ▸ nested.entry mem)
          (level + 1) (by omega) (show left ≤ depth by omega)
        obtain ⟨key, isText⟩ := keys entry mem
        obtain ⟨k, v⟩ := entry
        cases isText
        exact decides_member key inner
      · have count := length_lines_le "\x7b" "\x7d" level
          (entries.map (entryLine g left (level + 1)))
        rw [List.length_map] at count
        omega

/-- Reading a whole literal. -/
theorem Decides.read? {text : String} {v : Value} {ok : Prop}
    (h : Decides (value? (text.toList.length + 1) maxNesting) ok text.toList v) :
    (ok → read? text = some v) ∧ (¬ok → read? text = none) := by
  have ends : Ends [] := starts_nil _
  refine ⟨fun good => ?_, fun bad => ?_⟩
  · have read := h.reads good [] ends
    rw [List.append_nil] at read
    rw [Json.read?, skipSpaces_of_begins h.begins]
    simp [read]
  · have read := h.refuses bad [] ends
    rw [List.append_nil] at read
    rw [Json.read?, skipSpaces_of_begins h.begins]
    simp [read]

end Values

end Json

namespace Body

open Json

/-- A value of null, truth values, whole numbers that can be written, texts, lists and mappings of
texts, written as a literal of JSON within the usual bound on the depth, is a body for the same
value exactly when its texts and keys hold no control character but the newline. Else the literal is
opaque as a body. -/
theorem load_literal_iff (g : Graph) {v : Value} (plain : v.Built Scalar.IsPlain)
    (distinct : v.DistinctKeys) (nested : v.NestedWithin Literal.defaultMaxDepth) :
    ∃ text, (Literal.serialize .json ⟨g, v⟩ 0 Literal.defaultMaxDepth).result = .ok text ∧
      ((load (some text)).result = .ok (some v) ↔ v.AllTexts IsClean) ∧
      (¬v.AllTexts IsClean → (load (some text)).result = .ok none) := by
  refine ⟨_, Literal.result_serialize .json (plain.mono fun _ => Scalar.IsPlain.isJson) 0
    Literal.defaultMaxDepth, ?_⟩
  have within : v.NestedWithin (((33 : Nat) : Int) - 1) := nested
  obtain ⟨reads, refuses⟩ := (decides_render plain distinct within g 0
    (Nat.le_succ _) (show 33 ≤ maxNesting by decide)).read?
  have levels : Literal.levelsLeft 0 Literal.defaultMaxDepth = 33 := rfl
  simp only [result_load, value?, levels]
  refine ⟨⟨fun read => ?_, fun clean => congrArg Except.ok (reads clean)⟩,
    fun unclean => congrArg Except.ok (refuses unclean)⟩
  by_contra unclean
  rw [refuses unclean] at read
  simp at read

/-- A mapping whose texts hold quotes, backslashes, newlines, brackets and separators. -/
def escapable : Value :=
  .object [("a\": [", .list [.text "\"\\\n", .int (-10)]), ("", .null)]

/-- The conditions of `load_literal_iff` hold for `escapable`, whose texts are clean. -/
theorem escapable_loaded :
    escapable.Built Scalar.IsPlain ∧ escapable.DistinctKeys ∧
      escapable.NestedWithin Literal.defaultMaxDepth ∧
      ∃ text, (Literal.serialize .json ⟨[], escapable⟩ 0 Literal.defaultMaxDepth).result =
          .ok text ∧ (load (some text)).result = .ok (some escapable) := by
  have plain : escapable.Built Scalar.IsPlain := by
    have short : (Nat.toDigits 10 10).length ≤ Json.maxIntegerDigits := by decide
    simpa [escapable, Value.object, Value.text, Value.int, Value.null, Scalar.IsPlain] using short
  have distinct : escapable.DistinctKeys := by
    simp [escapable, Value.object, Value.text, Value.int, Value.null]
  have nested : escapable.NestedWithin Literal.defaultMaxDepth := by
    simp [escapable, Value.object, Value.text, Value.int, Value.null, Literal.defaultMaxDepth]
  have clean : escapable.AllTexts IsClean := by
    simp [escapable, Value.object, Value.text, Value.int, Value.null, Scalar.AllTexts, IsClean]
  obtain ⟨text, written, loaded, -⟩ := load_literal_iff [] plain distinct nested
  exact ⟨plain, distinct, nested, text, written, loaded.mpr clean⟩

/-- A tab has no escape in the dialect of JSON: the literal of a text that is a tab is opaque as a
body. -/
theorem tab_refused :
    (Literal.serialize .json ⟨[], .text "\t"⟩ 0 Literal.defaultMaxDepth).result = .ok "\"\t\"" ∧
      (load (some "\"\t\"")).result = .ok none :=
  ⟨rfl, rfl⟩

end Body

end RequestWriter
