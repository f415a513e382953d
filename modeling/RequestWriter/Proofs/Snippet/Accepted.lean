import RequestWriter.Proofs.Catalog
import RequestWriter.Proofs.Literal.Layout
import RequestWriter.Proofs.Snippet.Parsing
import RequestWriter.Proofs.Snippet.Python

/-!
# Python snippets are Python source

The parts of a Python snippet by their forms: the literal of a payload is an expression by induction
on the value, with a bracket open for each level; the header block is a dictionary display; what is
sent is a call. The lines are an import, assignments and calls, at the margin or below a `with`
statement. So a parser accepts a snippet as long as no literal is cut off. A carriage return cuts a
literal off, and a null character ends every source.
-/

namespace RequestWriter.Python

variable {s : String} {depth left : Nat} {level : Int} {r : Request} {headers : Headers}

section Displays

/-- The line end and the blanks in front of an entry. -/
def lineGap (blanks : String) (plain : ∀ c ∈ blanks.toList, c = ' ') : Gap :=
  ⟨"\n" ++ blanks, by
    intro c mem
    rw [String.toList_append, List.mem_append] at mem
    rcases mem with mem | mem
    · exact .inr (by simpa using mem)
    · exact .inl (plain c mem)⟩

def padGap (level : Int) : Gap :=
  lineGap (Literal.pad level) fun _ mem => Literal.eq_blank_of_mem_pad level mem

/-- A block is a display with a line for each entry. -/
theorem exists_gap_block (opening closing : String) (level : Int) (entries : List String) :
    ∃ gap : Gap, Literal.block opening closing level entries =
      opening ++ (Text.join "," (entries.map ("\n" ++ ·)) ++ gap) ++ closing := by
  unfold Literal.block
  by_cases none : entries = []
  · subst none
    exact ⟨⟨"", by simp⟩, by simp⟩
  · refine ⟨padGap level, ?_⟩
    rw [if_neg (by simpa using none), Literal.join_lines "\n" "," none]
    simp [padGap, lineGap, String.append_assoc]

theorem form_list {α : Type} {xs : List α} {look : α → String}
    (h : ∀ x ∈ xs, Form .expression depth (look x)) (level : Int) :
    Form .expression (depth + 1)
      (Literal.block "[" "]" level (xs.map fun x => Literal.pad (level + 1) ++ look x)) := by
  obtain ⟨gap, eq⟩ := exists_gap_block "[" "]" level
    (xs.map fun x => Literal.pad (level + 1) ++ look x)
  have items : (xs.map fun x => Literal.pad (level + 1) ++ look x).map ("\n" ++ ·) =
      (xs.map fun x => (⟨padGap (level + 1), look x⟩ : Item)).map Item.source := by
    simp [Item.source, padGap, lineGap, String.append_assoc]
  rw [eq, items]
  exact .list (by simpa using h)

theorem form_quote (clean : '\r' ∉ s.toList) : Form .expression depth (dialect.quote s) := by
  rw [Closed.quote_eq]
  exact .text (Closed.chars_escaped clean)

theorem form_dictionary {α : Type} {xs : List α} {key look : α → String} {blanks : String}
    (plain : ∀ c ∈ blanks.toList, c = ' ') (keys : ∀ x ∈ xs, '\r' ∉ (key x).toList)
    (h : ∀ x ∈ xs, Form .expression depth (look x)) (level : Int) :
    Form .expression (depth + 1) (Literal.block "\x7b" "\x7d" level
      (xs.map fun x => blanks ++ dialect.quote (key x) ++ dialect.keySeparator ++ look x)) := by
  let entry (x : α) : Entry :=
    ⟨lineGap blanks plain, dialect.quote (key x), ⟨" ", by simp⟩, look x⟩
  obtain ⟨gap, eq⟩ := exists_gap_block "\x7b" "\x7d" level
    (xs.map fun x => blanks ++ dialect.quote (key x) ++ dialect.keySeparator ++ look x)
  have separator : dialect.keySeparator = ":" ++ " " := rfl
  have entries :
      (xs.map fun x => blanks ++ dialect.quote (key x) ++ dialect.keySeparator ++ look x).map
        ("\n" ++ ·) = (xs.map entry).map Entry.source := by
    rw [List.map_map, List.map_map]
    refine List.map_congr_left fun x _ => ?_
    simp only [Function.comp_apply, entry, Entry.source, lineGap, separator, String.append_assoc]
  rw [eq, entries]
  refine .dictionary ?_ ?_
  · rw [List.forall_mem_map]
    exact fun x mem => form_quote (keys x mem)
  · rw [List.forall_mem_map]
    exact h

theorem form_scalar {s : Scalar} (h : s.IsJson)
    (clean : ∀ t ∈ (Value.scalar s).texts (left + 1), '\r' ∉ t.toList) :
    Form .expression depth (Literal.scalar dialect s) := by
  cases s with
  | null => exact .constant (by decide)
  | bool b => cases b <;> exact .constant (by decide)
  | int i => exact .number (Json.number_toString h)
  | float d => exact .number (Decimal.number_write h)
  | text s => exact form_quote (clean s (by simp [Value.texts]))
  | _ => exact absurd h id

/-- The literal of a value is an expression, with a bracket open for each level. -/
theorem form_render {v : Value} (built : v.Built Scalar.IsJson) (fits : left ≤ depth) (level : Int)
    (clean : ∀ t ∈ v.texts left, '\r' ∉ t.toList) :
    Form .expression depth (Literal.render dialect [] left level v) := by
  induction left generalizing v level depth with
  | zero =>
    rw [Literal.render]
    exact .constant (by decide)
  | succ left ih =>
    obtain ⟨depth, rfl⟩ := Nat.exists_eq_succ_of_ne_zero (show depth ≠ 0 by omega)
    have inner : left ≤ depth := by omega
    cases built with
    | scalar h => exact form_scalar h clean
    | list h =>
      rw [Value.texts] at clean
      refine form_list (fun v mem => ih (h v mem) inner (level + 1) fun t ht => ?_) level
      exact clean t (List.mem_flatMap.mpr ⟨v, mem, ht⟩)
    | @mapping entries keys h =>
      rw [Value.texts] at clean
      have parts : ∀ entry ∈ entries,
          ∀ t ∈ entry.1.display :: entry.2.texts left, '\r' ∉ t.toList :=
        fun entry mem t ht => clean t (List.mem_flatMap.mpr ⟨entry, mem, ht⟩)
      refine form_dictionary (fun _ mem => Literal.eq_blank_of_mem_pad (level + 1) mem)
        (fun entry mem => parts entry mem _ List.mem_cons_self)
        (fun entry mem => ih (h entry mem) inner (level + 1) fun t ht => ?_) level
      exact parts entry mem t (List.mem_cons_of_mem _ ht)

theorem form_headerBlock (clean : ∀ t ∈ headers.texts, '\r' ∉ t.toList) :
    Form .expression (depth + 1) (headers.block dialect "    " "") := by
  have parts : ∀ header ∈ headers, '\r' ∉ header.1.toList ∧ '\r' ∉ header.2.toList := by
    intro header mem
    have texts : ∀ t ∈ [header.1, header.2], '\r' ∉ t.toList :=
      fun t ht => clean t (List.mem_flatMap.mpr ⟨header, mem, ht⟩)
    simpa using texts
  rw [headerBlock_eq]
  exact form_dictionary (by simp) (fun header mem => (parts header mem).1)
    (fun header mem => form_quote (parts header mem).2) 0

end Displays

section Calls

/-- The keyword arguments of the call. -/
def keywordsOf (rawName : String) : Option Payload → List Keyword
  | some (.structured _) => [⟨"headers", "headers"⟩, ⟨"json", "payload"⟩]
  | some (.raw s) => [⟨"headers", "headers"⟩, ⟨rawName, dialect.quote s⟩]
  | none => [⟨"headers", "headers"⟩]

theorem arguments_eq (rawName : String) (p : Option Payload) :
    arguments rawName p = (keywordsOf rawName p).map Keyword.source := by
  match p with
  | none => rfl
  | some (.structured _) => rfl
  | some (.raw s) => simp [arguments, keywordsOf, Keyword.source, String.append_assoc]

theorem nodup_keywordsOf {rawName : String} (other : rawName ≠ "headers") (p : Option Payload) :
    ((keywordsOf rawName p).map Keyword.name).Nodup := by
  match p with
  | none => simp [keywordsOf]
  | some (.structured _) => simp [keywordsOf]
  | some (.raw s) => simpa [keywordsOf] using other.symm

theorem keywordsOf_spec {rawName : String} (named : isName rawName = true) {p : Option Payload}
    (clean : ∀ t ∈ Payload.rawTexts p, '\r' ∉ t.toList) :
    ∀ k ∈ keywordsOf rawName p, isName k.name = true ∧ Form .expression depth k.text := by
  have given : ∀ name, isName name = true → Form .expression depth name := fun _ h =>
    .primary (.name h)
  match p with
  | none => simpa [keywordsOf] using ⟨by decide, given "headers" (by decide)⟩
  | some (.structured _) =>
    simp only [keywordsOf, List.forall_mem_cons, List.not_mem_nil, false_imp_iff, implies_true]
    exact ⟨⟨by decide, given _ (by decide)⟩, ⟨by decide, given _ (by decide)⟩, trivial⟩
  | some (.raw s) =>
    simp only [keywordsOf, List.forall_mem_cons, List.not_mem_nil, false_imp_iff, implies_true]
    have text : '\r' ∉ s.toList := clean s (by simp [Payload.rawTexts])
    exact ⟨⟨by decide, given _ (by decide)⟩, ⟨named, form_quote text⟩,
      trivial⟩

/-- The call of a client. -/
theorem form_call {receiver rawName : String} (client : isName receiver = true)
    (named : isName rawName = true) (other : rawName ≠ "headers") {p : Option Payload}
    (raw : ∀ t ∈ Payload.rawTexts p, '\r' ∉ t.toList) (verb : ∀ t ∈ r.otherVerb, '\r' ∉ t.toList) :
    Form .primary (depth + 2) (call receiver r (arguments rawName p)) := by
  have keywords : ∀ k ∈ keywordsOf rawName p,
      isName k.name = true ∧ Form .expression (depth + 1) k.text := keywordsOf_spec named raw
  have url : Form .expression (depth + 1) "url" := .primary (.name (by decide))
  have method : ∀ name first : String, isName name = true →
      ∀ more : List String, (∀ text ∈ first :: more, Form .expression (depth + 1) text) →
      Form .primary (depth + 2) (Text.join ", " ((receiver ++ "." ++ name ++ "(" ++ first) ::
        (more ++ arguments rawName p)) ++ ")") := by
    intro name first method more values
    have form : Form .primary (depth + 2) (receiver ++ ("." ++ name) ++ ("(" ++ Text.join ", "
        ((first :: more) ++ (keywordsOf rawName p).map Keyword.source) ++ ")")) :=
      .call (.member (.name client) method) values (fun k mem => (keywords k mem).1)
        (nodup_keywordsOf other p) fun k mem => (keywords k mem).2
    rw [join_behind, arguments_eq]
    simpa only [String.append_assoc, List.cons_append] using form
  unfold call
  cases standard : r.isStandard with
  | true =>
    have names : ∀ verb ∈ standardVerbs, isName (Text.lower verb) = true := by decide
    have form := method (Text.lower r.verb) "url"
      (names r.verb (List.contains_iff_mem.mp standard)) [] (by simpa using url)
    simpa [String.append_assoc] using form
  | false =>
    have quoted : Form .expression (depth + 1) (dialect.quote r.verb) :=
      form_quote (verb r.verb (by simp [Request.otherVerb, standard]))
    have form := method "request" (dialect.quote r.verb) (by decide) ["url"]
      (by simpa using ⟨quoted, url⟩)
    have head : receiver ++ ".request(" ++ dialect.quote r.verb ++ ", url" =
        receiver ++ ".request(" ++ dialect.quote r.verb ++ ", " ++ "url" := by
      simp [String.append_assoc]
    simp only [Bool.false_eq_true, if_false]
    rw [head, join_behind]
    simpa [String.append_assoc, Text.join_cons_cons] using form

end Calls

section Blocks

variable {line : String} {front back : List String}

/-- A line at the margin, in front of other lines. -/
theorem block_cons (first : line = "" ∨ Simple line) {next : String} {lines : List String}
    (rest : Block maxNesting 0 (ofLines (next :: lines))) :
    Block maxNesting 0 (ofLines (line :: next :: lines)) := by
  have below : ofLines (line :: next :: lines) = line ++ ("\n" ++ ofLines (next :: lines)) := by
    rw [ofLines, Text.join_cons_cons, String.append_assoc, ← ofLines]
  rw [below]
  rcases first with rfl | simple
  · exact .blank rest
  · exact .next (.line simple) rest

theorem block_append (first : ∀ line ∈ front, line = "" ∨ Simple line) (nonempty : back ≠ [])
    (rest : Block maxNesting 0 (ofLines back)) : Block maxNesting 0 (ofLines (front ++ back)) := by
  induction front with
  | nil => exact rest
  | cons line front ih =>
    rw [List.forall_mem_cons] at first
    obtain ⟨next, lines, eq⟩ := List.exists_cons_of_ne_nil
      (show front ++ back ≠ [] by simp [nonempty])
    have later := ih first.2
    rw [List.cons_append]
    rw [eq] at later ⊢
    exact block_cons first.1 later

theorem simple_assignment (name : String) {target : String} (eq : target = name ++ " = ")
    (named : isName name = true) (value : Form .expression maxNesting s) :
    Simple (target ++ s) := by
  rw [eq, String.append_assoc]
  exact .assignment named value

theorem simple_opening {library : String} (named : isName library = true) {p : Option Payload}
    (json : ∀ v, p = some (.structured v) → v.Built Scalar.IsJson)
    (clean : ∀ t ∈ r.url :: headers.texts ++ Payload.structuredTexts p, '\r' ∉ t.toList) :
    ∀ line ∈ opening library r headers p, line = "" ∨ Simple line := by
  rw [List.cons_append, List.forall_mem_cons, List.forall_mem_append] at clean
  obtain ⟨url, block, payload⟩ := clean
  have front : ∀ line ∈ ["import " ++ library, "", "url = " ++ dialect.quote r.url,
      "headers = " ++ headers.block dialect "    " ""], line = "" ∨ Simple line := by
    rw [List.forall_mem_cons, List.forall_mem_cons, List.forall_mem_cons, List.forall_mem_singleton]
    exact ⟨.inr (.importing named), .inl rfl,
      .inr (simple_assignment "url" rfl (by decide) (form_quote url)),
      .inr (simple_assignment "headers" rfl (by decide) (form_headerBlock block))⟩
  unfold opening
  rw [List.forall_mem_append]
  refine ⟨front, ?_⟩
  match p with
  | none => simp
  | some (.raw _) => simp
  | some (.structured v) =>
    have fits : Payload.levels ≤ maxNesting := by decide
    have form := form_render (json v rfl) fits 0 payload
    rw [List.forall_mem_singleton]
    exact .inr (simple_assignment "payload" rfl (by decide) form)

/-- A call without arguments. -/
theorem form_bare (h : Form .primary depth s) : Form .primary (depth + 1) (s ++ "()") := by
  have form : Form .primary (depth + 1) (s ++ ("(" ++ Text.join ", "
      ([] ++ ([] : List Keyword).map Keyword.source) ++ ")")) :=
    .call h (by simp) (by simp) (by simp) (by simp)
  simpa using form

theorem simple_print : Simple "print(response.json())" := by
  have response : Form .primary 63 ("response" ++ ("." ++ "json") ++ "()") :=
    form_bare (.member (.name (by decide)) (by decide))
  have shown : Form .primary maxNesting ("print" ++ ("(" ++ Text.join ", "
      (["response" ++ ("." ++ "json") ++ "()"] ++ ([] : List Keyword).map Keyword.source) ++
        ")")) :=
    .call (.name (by decide)) (by simpa using .primary response) (by simp) (by simp)
      (by simp)
  exact .expression (.primary shown)

theorem simple_response {receiver rawName : String} (client : isName receiver = true)
    (named : isName rawName = true) (other : rawName ≠ "headers") {p : Option Payload}
    (raw : ∀ t ∈ Payload.rawTexts p, '\r' ∉ t.toList) (verb : ∀ t ∈ r.otherVerb, '\r' ∉ t.toList) :
    Simple ("response = " ++ call receiver r (arguments rawName p)) :=
  simple_assignment "response" rfl (by decide) (.primary (form_call client named other raw verb))

theorem block_simple (statement : Simple s) : Block maxNesting 0 s := by
  have block := @Block.line maxNesting 0 s statement
  rwa [margin, List.replicate_zero, String.ofList_nil, String.empty_append] at block

theorem block_requests (clean : ∀ t ∈ Library.requests.literals r headers, '\r' ∉ t.toList) :
    Block maxNesting 0 (requests r headers) := by
  simp only [Library.literals, List.forall_mem_append] at clean
  obtain ⟨⟨texts, verb⟩, raw⟩ := clean
  have opening := @simple_opening r headers "requests" (by decide) _ (Piece.isJson_ofRequest? r)
    (by simpa only [List.forall_mem_append] using texts)
  have response := @simple_response r "requests" "data" (by decide) (by decide) (by decide) _ raw
    verb
  refine block_append opening (by simp) ?_
  exact block_cons (.inl rfl) (block_cons (.inr response) (block_simple simple_print))

theorem block_httpx (clean : ∀ t ∈ Library.httpx.literals r headers, '\r' ∉ t.toList) :
    Block maxNesting 0 (httpx r headers) := by
  simp only [Library.literals, List.forall_mem_append] at clean
  obtain ⟨⟨texts, verb⟩, raw⟩ := clean
  have opening := @simple_opening r headers "httpx" (by decide) _ (Piece.isJson_ofRequest? r)
    (by simpa only [List.forall_mem_append] using texts)
  have response := @simple_response r "client" "content" (by decide) (by decide) (by decide) _ raw
    verb
  have body : Block 63 4 (margin 4 ++ ("response = " ++ call "client" r
      (arguments "content" (Payload.ofRequest? r))) ++ ("\n" ++ (margin 4 ++
        "print(response.json())"))) :=
    .next (.line response) (.line simple_print)
  have context : Form .expression maxNesting ("httpx" ++ ("." ++ "Client") ++ "()") :=
    .primary (form_bare (.member (.name (by decide)) (by decide)))
  have block := Block.within (show 0 < 4 by decide) context
    (show isName "client" = true by decide) body
  refine block_append opening (by simp) (block_cons (.inl rfl) ?_)
  have lines : ofLines ["with httpx.Client() as client:", "    response = " ++ call "client" r
      (arguments "content" (Payload.ofRequest? r)), "    print(response.json())"] =
      margin 0 ++ ("with " ++ ("httpx" ++ ("." ++ "Client") ++ "()" ++ (" as " ++ ("client" ++
        (":\n" ++ (margin 4 ++ ("response = " ++ call "client" r
          (arguments "content" (Payload.ofRequest? r))) ++ ("\n" ++ (margin 4 ++
            "print(response.json())")))))))) := by
    apply String.toList_injective
    simp [ofLines, Text.join_cons_cons, margin]
  rw [lines]
  exact block

theorem block_source {library : Library} (python : library.target = .python)
    (clean : ∀ t ∈ library.literals r headers, '\r' ∉ t.toList) :
    Block maxNesting 0 (library.source r headers) := by
  cases library with
  | requests => exact block_requests clean
  | httpx => exact block_httpx clean
  | _ => cases python

end Blocks

section Sources

variable {library : Library} (python : library.target = .python) (r : Request) (headers : Headers)
include python

/-- A snippet with clean texts is of the forms of Python source. -/
theorem valid_source
    (clean : ∀ text ∈ library.literals r headers, '\r' ∉ text.toList ∧ '\x00' ∉ text.toList) :
    Valid (library.source r headers) := by
  have absent : ∀ d ∈ cutting, d ∉ (library.source r headers).toList := by
    intro d cut found
    obtain ⟨t, mem, found⟩ := ((Reads.source python r headers).holds d cut).mp found
    simp only [cutting, List.mem_cons, List.not_mem_nil, or_false] at cut
    rcases cut with rfl | rfl
    · exact (clean t mem).1 found
    · exact (clean t mem).2 found
  refine ⟨absent '\x00' (by decide), ?_⟩
  rw [Text.unifyLineEnds_of_notMem (absent '\r' (by decide)), String.ofList_toList]
  exact block_source python fun t mem => (clean t mem).1

/-- A parser accepts a snippet exactly when no literal of it holds a carriage return or a null
character. -/
theorem problem?_source_iff [Parser] [Parser.IsUsual] :
    Parser.problem? (library.source r headers) = none ↔
      ∀ text ∈ library.literals r headers, '\r' ∉ text.toList ∧ '\x00' ∉ text.toList := by
  have reads := Reads.source python r headers
  constructor
  · intro accepted text mem
    refine ⟨fun found => Parser.IsUsual.refuses_cut ?_ accepted,
      fun found => Parser.IsUsual.refuses_null ?_ accepted⟩
    · exact reads.isCut_iff.mpr ⟨text, mem, found⟩
    · exact (reads.holds '\x00' (by decide)).mpr ⟨text, mem, found⟩
  · intro clean
    exact Parser.IsUsual.accepts (valid_source python r headers clean)

/-- A snippet is of the forms of Python source exactly when no literal of it holds a carriage return
or a null character. -/
theorem valid_source_iff : Valid (library.source r headers) ↔
    ∀ text ∈ library.literals r headers, '\r' ∉ text.toList ∧ '\x00' ∉ text.toList :=
  ⟨fun valid => (problem?_source_iff python r headers).mp (Parser.IsUsual.accepts valid),
    valid_source python r headers⟩

end Sources

end RequestWriter.Python

namespace RequestWriter.Catalog

theorem exists_library_python (variant : Option String) :
    ∃ library : Library, library.target = .python ∧ ∀ r headers,
      (generate "python" variant r headers).result =
        .ok ⟨"python", offered .python variant, library.source r headers⟩ := by
  have named : Language.python.id = Text.lower "python" := by decide
  obtain ⟨library, mem, found⟩ := library_offered (l := .python) rfl variant
  refine ⟨library, ?_, result_generate_of_library named rfl found⟩
  simp only [List.mem_cons, List.not_mem_nil, or_false, Prod.mk.injEq] at mem
  rcases mem with ⟨-, rfl⟩ | ⟨-, rfl⟩ <;> rfl

section Checks

variable [Python.Parser] [Python.Parser.IsUsual]

/-- The check of a Python snippet depends on the texts in its literals. -/
theorem checked_eq_ok_none_iff {library : Library} (python : library.target = .python)
    (r : Request) (headers : Headers) {variant : String}
    (listed : variant ∈ Language.python.variants) (whole : Bool) :
    Snippet.checked ⟨"python", variant, library.source r headers⟩ whole = .ok none ↔
      whole = true ∧
        ∀ text ∈ library.literals r headers, '\r' ∉ text.toList ∧ '\x00' ∉ text.toList := by
  obtain ⟨cs, ends⟩ := Python.toList_source python r headers
  have suffixes : ∀ variant ∈ Language.python.variants,
      (variant ++ ".py").endsWith ".py" = true := by
    decide +kernel
  have suffix := suffixes variant listed
  have visible : Text.allBlank (library.source r headers) = false := by
    rw [Text.allBlank, ends, List.all_append]
    simp only [Bool.and_eq_false_imp]
    intro _
    decide
  rw [← Python.problem?_source_iff python r headers]
  cases whole <;> simp [Snippet.checked, Snippet.problem?, Python.fileMessage?, suffix, visible]

/-- Every request becomes a snippet for Python, whatever variant is asked for, and with whatever
lone halves in its texts and headers. The snippet is of the forms of Python source exactly when no
text that stands in one of its literals holds a carriage return or a null character. The check by a
parser passes exactly when the snippet holds no lone half besides. -/
theorem generate_python_parses (variant : Option String) (r : Marked Request)
    (headers : Marked Headers) :
    ∃ library : Library, library.target = .python ∧
      let request : Marked Request := fun mark => (r mark).marked mark
      let snippet : Marked Snippet := fun mark =>
        ⟨"python", offered .python variant, library.source (request mark) (headers mark)⟩
      let clean (mark : Char) : Prop := ∀ text ∈ library.literals (request mark) (headers mark),
        '\r' ∉ text.toList ∧ '\x00' ∉ text.toList
      (∀ mark,
        (generate "python" variant (request mark) (headers mark)).result = .ok (snippet mark) ∧
          (Python.Valid (snippet mark).source ↔ clean mark)) ∧
      ((snippet Marked.firstMark).checked (Marked.isWhole snippet) = .ok none ↔
        Marked.isWhole snippet = true ∧ clean Marked.firstMark) := by
  obtain ⟨library, python, result⟩ := exists_library_python variant
  refine ⟨library, python, fun mark => ⟨result _ _, ?_⟩, ?_⟩
  · exact Python.valid_source_iff python ((r mark).marked mark) (headers mark)
  · exact checked_eq_ok_none_iff python ((r Marked.firstMark).marked Marked.firstMark)
      (headers Marked.firstMark) (offered_mem .python variant) _

end Checks

/-- A note of two lines. -/
def twoLines : Request :=
  ⟨"POST", "https://api.example.com/notes", [], some "\x7b\"note\": \"one\\ntwo\"\x7d"⟩

/-- The check of the note passes. -/
theorem twoLines_parses : ∃ snippet : Snippet,
    (generate "python" none twoLines []).result = .ok snippet ∧ Python.Valid snippet.source ∧
      snippet.checked true = .ok none := by
  have unmarked := twoLines.marked_eq_self
    (show ∀ body ∈ twoLines.body, Body.namesHalf body = false by decide +kernel)
  obtain ⟨library, python, written, checked⟩ :=
    generate_python_parses none (fun _ => twoLines) fun _ => []
  simp only [unmarked] at written checked
  have clean : ∀ text ∈ library.literals twoLines [],
      '\r' ∉ text.toList ∧ '\x00' ∉ text.toList := by
    cases library <;> decide +kernel
  have whole : (Marked.isWhole fun _ : Char => (⟨"python", offered .python none,
      library.source twoLines []⟩ : Snippet)) = true := by simp [Marked.isWhole]
  rw [whole] at checked
  exact ⟨_, (written Marked.firstMark).1, (written Marked.firstMark).2.mpr clean,
    checked.mpr ⟨rfl, clean⟩⟩

/-- The note with a carriage return in front of the newline. -/
def twoLinesReturned : Request :=
  ⟨"POST", "https://api.example.com/notes", [], some "\x7b\"note\": \"one\\r\\ntwo\"\x7d"⟩

/-- The carriage return of the note cuts its literal off, so with no parser do all snippets pass the
check. -/
theorem return_cut_off :
    ¬∃ (_ : Python.Parser) (_ : Python.Parser.IsUsual),
      ∀ (variant : Option String) (r : Request) (headers : Headers),
        (∀ (library : Library) (mark : Char),
          ∀ text ∈ library.literals (r.marked mark) headers, '\x00' ∉ text.toList) →
        ∃ snippet : Marked Snippet,
          (∀ mark, (generate "python" variant (r.marked mark) headers).result =
            .ok (snippet mark)) ∧
          (snippet Marked.firstMark).checked (Marked.isWhole snippet) = .ok none := by
  rintro ⟨_, _, all⟩
  have unmarked := twoLinesReturned.marked_eq_self
    (show ∀ body ∈ twoLinesReturned.body, Body.namesHalf body = false by decide +kernel)
  have noNull : ∀ (library : Library) (mark : Char),
      ∀ text ∈ library.literals (twoLinesReturned.marked mark) [], '\x00' ∉ text.toList := by
    intro library mark
    rw [unmarked]
    cases library <;> decide +kernel
  obtain ⟨snippet, result, passes⟩ := all none twoLinesReturned [] noNull
  obtain ⟨library, python, written⟩ := exists_library_python none
  have made := result Marked.firstMark
  rw [unmarked, written] at made
  rw [← Except.ok.inj made] at passes
  obtain ⟨-, clean⟩ := (checked_eq_ok_none_iff python _ _ (offered_mem .python none) _).mp passes
  have note : "one\r\ntwo" ∈ library.literals twoLinesReturned [] := by
    cases library <;> decide +kernel
  exact absurd (clean _ note).1 (by decide)

end RequestWriter.Catalog
