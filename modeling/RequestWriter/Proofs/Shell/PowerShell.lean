import RequestWriter.Proofs.Literal.Quotation
import RequestWriter.Proofs.Snippet.Agreement

/-!
# Commands as PowerShell reads them

PowerShell takes five characters for a single quote, and a literal doubles only one of them. A quote
that is not doubled ends the string, or takes the next quote along where one follows directly. Both
change the number of quotes that the strings of a command account for. So a count of quotes settles
which texts come through: those without the other four characters, and no more.
-/

namespace RequestWriter.PowerShell

open Shell

/-- The marks of typography that PowerShell takes for a single quote. -/
def curly : List Char := ['‘', '’', '‚', '‛']

/-- Whether a character is a single quote to PowerShell. -/
def isQuote (c : Char) : Bool := c == '\'' || curly.contains c

/-- How PowerShell reads strings between single quotes: of two quotes in a row inside of one, the
second is meant, and a quote without another behind it is the end. -/
def quotation : Quotation where
  isMark := isQuote
  pair? a b := if isQuote a && isQuote b then some b else none

/-- The number of quotes in a text. -/
def quotes (cs : List Char) : Nat := cs.countP isQuote

/-- A text without typographic quotes. -/
def Straight (cs : List Char) : Prop := ∀ c ∈ cs, c ∉ curly

variable {a b c : Char} {read cs s rest : List Char} {w : String} {ws : List String}

section Counting

@[simp] theorem quotes_nil : quotes [] = 0 := rfl

theorem quotes_quote (h : isQuote c = true) (cs : List Char) :
    quotes (c :: cs) = quotes cs + 1 := List.countP_cons_of_pos h

theorem quotes_plain (h : isQuote c = false) (cs : List Char) : quotes (c :: cs) = quotes cs :=
  List.countP_cons_of_neg (by simp [h])

@[simp] theorem quotes_append (cs cs' : List Char) :
    quotes (cs ++ cs') = quotes cs + quotes cs' := List.countP_append

theorem quotes_eq_zero_iff : quotes cs = 0 ↔ ∀ c ∈ cs, isQuote c = false := by
  simp [quotes, List.countP_eq_zero]

theorem pair?_eq_some_iff :
    quotation.pair? a b = some c ↔ isQuote a = true ∧ isQuote b = true ∧ b = c := by
  simp [quotation, and_assoc]

/-- The number of quotes that strings are written with: both ends, and two for each one inside. -/
def cost (ws : List String) : Nat := (ws.map fun w => 2 * quotes w.toList + 2).sum

@[simp] theorem cost_cons (w : String) (ws : List String) :
    cost (w :: ws) = 2 * quotes w.toList + 2 + cost ws := rfl

/-- Every quote of a source is an end of a string or one of a pair. -/
theorem quotes_eq {inside : Option (List Char)} (h : quotation.Finds inside cs ws) :
    quotes cs + (inside.elim 0 fun read => 2 * quotes read + 1) = cost ws := by
  induction h with
  | done => rfl
  | code plain _ ih =>
    rw [quotes_plain plain]
    exact ih
  | opening mark _ ih =>
    rw [quotes_quote mark, ← ih]
    rfl
  | pair pair _ ih =>
    obtain ⟨first, second, rfl⟩ := pair?_eq_some_iff.mp pair
    rw [quotes_quote first, quotes_quote second, ← ih]
    simp only [Option.elim_some, quotes_append, quotes_quote second, quotes_nil]
    omega
  | char plain _ ih =>
    rw [quotes_plain plain, ← ih]
    simp only [Option.elim_some, quotes_append, quotes_plain plain, quotes_nil]
    omega
  | closing mark _ ih =>
    rw [quotes_quote mark, cost_cons, ← ih]
    simp only [Option.elim_some, Option.elim_none, String.toList_ofList]
    omega

/-- The first string from a place inside of it on: it is as long as its text, with one more
character for each quote inside and one for the end. -/
theorem exists_first (h : quotation.Finds (some read) cs ws) :
    ∃ front rest s others, cs = front ++ rest ∧ front.length = s.length + quotes s + 1 ∧
      ws = String.ofList (read ++ s) :: others ∧ quotation.Finds none rest others := by
  generalize inside : some read = place at h
  induction h generalizing read with
  | done | code | opening => cases inside
  | @pair a b c read cs ws pair _ ih =>
    cases inside
    obtain ⟨-, second, rfl⟩ := pair?_eq_some_iff.mp pair
    obtain ⟨front, rest, s, others, rfl, length, rfl, more⟩ := ih rfl
    refine ⟨a :: b :: front, rest, b :: s, others, rfl, ?_, by simp, more⟩
    simp only [List.length_cons, length, quotes_quote second]
    omega
  | @char a read cs ws plain _ ih =>
    cases inside
    obtain ⟨front, rest, s, others, rfl, length, rfl, more⟩ := ih rfl
    refine ⟨a :: front, rest, a :: s, others, rfl, ?_, by simp, more⟩
    simp only [List.length_cons, length, quotes_plain plain]
    omega
  | @closing a read cs ws mark more =>
    cases inside
    exact ⟨[a], cs, [], ws, rfl, rfl, by simp, more⟩

end Counting

section Quotes

/-- The characters of a text between its quotes. -/
def written (s : List Char) : List Char := s.flatMap Target.powershell.dialect.escapeChar

theorem written_quote (s : List Char) : written ('\'' :: s) = '\'' :: '\'' :: written s := rfl

theorem written_other (other : c ≠ '\'') (s : List Char) : written (c :: s) = c :: written s := by
  simp [written, Dialect.escapeChar, Target.dialect, other]

theorem length_written (s : List Char) : (written s).length = s.length + s.count '\'' := by
  induction s with
  | nil => rfl
  | cons c s ih =>
    by_cases quote : c = '\''
    · subst quote
      simp only [written_quote, List.length_cons, List.count_cons_self, ih]
      omega
    · simp only [written_other quote, List.length_cons, List.count_cons_of_ne quote, ih]
      omega

theorem quotes_written (s : List Char) : quotes (written s) = quotes s + s.count '\'' := by
  induction s with
  | nil => rfl
  | cons c s ih =>
    by_cases quote : c = '\''
    · subst quote
      simp only [written_quote, quotes_quote (c := '\'') rfl, List.count_cons_self, ih]
      omega
    · rw [written_other quote, List.count_cons_of_ne quote]
      cases mark : isQuote c with
      | true =>
        rw [quotes_quote mark, quotes_quote mark, ih]
        omega
      | false => rw [quotes_plain mark, quotes_plain mark, ih]

theorem count_le_quotes (s : List Char) : s.count '\'' ≤ quotes s := by
  refine List.countP_mono_left fun c _ quote => ?_
  simp [isQuote, eq_of_beq quote]

/-- A text whose quotes are all doubled where they are written holds no typographic ones. -/
theorem straight_of_quotes_le (h : quotes s ≤ s.count '\'') : Straight s := by
  induction s with
  | nil => exact List.forall_mem_nil _
  | cons c s ih =>
    have others := count_le_quotes s
    by_cases quote : c = '\''
    · subst quote
      rw [quotes_quote rfl, List.count_cons_self] at h
      exact List.forall_mem_cons.mpr ⟨by decide, ih (by omega)⟩
    · rw [List.count_cons_of_ne quote] at h
      cases mark : isQuote c with
      | true =>
        rw [quotes_quote mark] at h
        omega
      | false =>
        rw [quotes_plain mark] at h
        refine List.forall_mem_cons.mpr ⟨fun mem => ?_, ih h⟩
        simp [isQuote, mem] at mark

/-- The text does not go on with a quote. -/
def Stops (rest : List Char) : Prop := ∀ c, rest.head? = some c → isQuote c = false

/-- A character that is no quote is not the first of a pair, and a quote in front of something else
is not either. -/
theorem alone_of_plain (h : isQuote a = false) (cs : List Char) : quotation.Alone a cs := by
  intro b _
  simp [quotation, h]

theorem alone_of_stops (stop : Stops rest) (a : Char) : quotation.Alone a rest := by
  intro b first
  simp [quotation, stop b first]

/-- A straight text is read back up to the quote at its end. -/
theorem strings?_written (straight : Straight s) (stop : Stops rest) (read : List Char) :
    quotation.strings? (some read) (written s ++ '\'' :: rest) =
      (quotation.strings? none rest).map (String.ofList (read ++ s) :: ·) := by
  induction s generalizing read with
  | nil =>
    rw [List.append_nil]
    exact Quotation.strings?_close rfl (alone_of_stops stop _) read
  | cons c s ih =>
    obtain ⟨noCurly, others⟩ := List.forall_mem_cons.mp straight
    have step := ih others (read ++ [c])
    rw [List.append_assoc, List.singleton_append] at step
    by_cases quote : c = '\''
    · subst quote
      rw [written_quote, ← step]
      exact Quotation.strings?_pair rfl read _
    · have plain : isQuote c = false := by simp [isQuote, quote, noCurly]
      rw [written_other quote, ← step]
      exact Quotation.strings?_plain plain (alone_of_plain plain _) read

/-- A literal that is read as its text has no typographic quotes in it: each of them takes the
quote behind it along, so that the reader gets past the end of the literal, over as many quotes as
there are too few inside, but behind a literal there is none. -/
theorem straight_of_strings? (stop : Stops rest)
    (h : quotation.strings? (some []) (written s ++ '\'' :: rest) = some (String.ofList s :: ws)) :
    Straight s := by
  have finds := Quotation.finds_of_strings? h
  obtain ⟨front, behind, text, others, parts, length, words, more⟩ := exists_first finds
  obtain ⟨word, rfl⟩ := List.cons.inj words
  obtain rfl := String.ofList_inj.mp word
  have total := quotes_eq finds
  have later := quotes_eq more
  simp only [Option.elim_some, Option.elim_none, cost_cons, String.toList_ofList, parts,
    quotes_append, quotes_nil] at total later
  refine straight_of_quotes_le ?_
  -- The reader stops at the end of the literal or `past` it, since a text is never shorter written
  -- than read.
  have shape : written s ++ '\'' :: rest = written s ++ ['\''] ++ rest := by simp
  rw [shape] at parts
  rcases List.append_eq_append_iff.mp parts with ⟨past, rfl, rfl⟩ | ⟨missing, eq, -⟩
  · simp only [List.length_append, quotes_append, length_written, quotes_written,
      quotes_quote (c := '\'') rfl, quotes_nil, List.length_singleton] at length total
    cases past with
    | nil =>
      rw [List.length_nil] at length
      omega
    | cons c past =>
      -- Past the end each character accounts for one quote at most, and the first one for none.
      have plain := stop c rfl
      have few : quotes past ≤ past.length := List.countP_le_length
      rw [quotes_plain plain] at total
      rw [List.length_cons] at length
      omega
  · have lengths := congrArg List.length eq
    simp only [List.length_append, length_written, List.length_singleton] at lengths
    omega

/-- A literal is read as its text, up to its end, exactly when the text is straight. -/
theorem strings?_quote (s : String) (ws : List String) (stop : Stops rest) :
    quotation.strings? none ((powershellQuote s).toList ++ rest) = some (s :: ws) ↔
      Straight s.toList ∧ quotation.strings? none rest = some ws := by
  have shape : (powershellQuote s).toList ++ rest =
      '\'' :: (written s.toList ++ '\'' :: rest) := by
    rw [powershellQuote, Dialect.toList_quote]
    simp [written, Target.dialect]
  rw [shape, Quotation.strings?_mark rfl]
  constructor
  · intro h
    have straight := straight_of_strings? stop (by rwa [String.ofList_toList])
    rw [strings?_written straight stop] at h
    simpa [straight] using h
  · rintro ⟨straight, others⟩
    rw [strings?_written straight stop, others]
    simp

end Quotes

section Commands

variable {r : Request}

/-- The part of the command that lists the headers. -/
def headerChars (headers : Headers) : List Char :=
  headers.flatMap fun header =>
    "\n    ".toList ++ ((powershellQuote header.1).toList ++
      (" = ".toList ++ (powershellQuote header.2).toList))

/-- The text of the body, if one is sent. -/
def bodyTexts (r : Request) : List String := r.sentBody?.toList.map Body.compact

/-- The part of the command that declares the body. -/
def bodyChars (r : Request) : List Char :=
  (bodyTexts r).flatMap fun text => "\n$body = ".toList ++ (powershellQuote text).toList

/-- The strings of the command that are the same for every request. -/
def constants (r : Request) : List String :=
  if r.carriesBody then ["application/json"] else []

/-- What stands behind the verb. -/
def ending (r : Request) : List Char :=
  (if r.carriesBody then
    " -Headers $headers -Body $body -ContentType 'application/json'"
  else " -Headers $headers").toList

/-- The part of the command that makes the call. -/
def callChars (r : Request) : List Char :=
  "\nInvoke-WebRequest -Uri ".toList ++ ((powershellQuote r.url).toList ++
    (" -Method ".toList ++ (r.verb.toList ++ ending r)))

theorem toList_powershellCall (r : Request) (headers : Headers) :
    (powershellCall r headers).toList =
      "$headers = @\x7b".toList ++
        (headerChars headers ++ ("\n\x7d".toList ++ (bodyChars r ++ callChars r))) := by
  unfold bodyChars bodyTexts callChars ending Request.carriesBody
  simp only [powershellCall, List.append_assoc, List.cons_append, List.nil_append]
  rw [Text.toList_join_cons]
  cases r.sentBody? with
  | none => simp [headerChars, List.flatMap_map]
  | some body => simp [headerChars, List.flatMap_map]

theorem stops_cons (plain : isQuote c = false) (cs : List Char) : Stops (c :: cs) := by
  rintro d ⟨⟩
  exact plain

theorem stops_headerChars (stop : Stops rest) (headers : Headers) :
    Stops (headerChars headers ++ rest) := by
  cases headers with
  | nil => exact stop
  | cons header headers => exact stops_cons (c := '\n') rfl _

/-- The names and values of the headers are read exactly when all of them are straight. -/
theorem strings?_headers (stop : Stops rest) (headers : Headers) :
    quotation.strings? none (headerChars headers ++ rest) = some (headers.texts ++ ws) ↔
      (∀ text ∈ headers.texts, Straight text.toList) ∧
        quotation.strings? none rest = some ws := by
  induction headers with
  | nil => simp [headerChars, Headers.texts]
  | cons header headers ih =>
    have chars : headerChars (header :: headers) ++ rest =
        "\n    ".toList ++ ((powershellQuote header.1).toList ++ (" = ".toList ++
          ((powershellQuote header.2).toList ++ (headerChars headers ++ rest)))) := by
      simp [headerChars]
    have texts : Headers.texts (header :: headers) ++ ws =
        header.1 :: header.2 :: (Headers.texts headers ++ ws) := rfl
    have indent : quotation.IsCode "\n    ".toList := by decide
    have equals : quotation.IsCode " = ".toList := by decide
    have behindName : Stops (" = ".toList ++
        ((powershellQuote header.2).toList ++ (headerChars headers ++ rest))) :=
      stops_cons (c := ' ') rfl _
    have value := strings?_quote header.2 (Headers.texts headers ++ ws)
      (stops_headerChars stop headers)
    have name := strings?_quote header.1 (header.2 :: (Headers.texts headers ++ ws)) behindName
    rw [Quotation.strings?_code equals, value, ih] at name
    rw [chars, texts, Quotation.strings?_code indent, name]
    simp [Headers.texts, and_assoc]

/-- The body is read exactly when its text is straight. -/
theorem strings?_body (stop : Stops rest) (r : Request) :
    quotation.strings? none (bodyChars r ++ rest) = some (bodyTexts r ++ ws) ↔
      (∀ text ∈ bodyTexts r, Straight text.toList) ∧ quotation.strings? none rest = some ws := by
  have code : quotation.IsCode "\n$body = ".toList := by decide
  unfold bodyChars bodyTexts
  cases r.sentBody? with
  | none => simp
  | some body =>
    simp only [Option.toList_some, List.map_cons, List.map_nil, List.flatMap_singleton,
      List.append_assoc, List.singleton_append, List.forall_mem_singleton]
    rw [Quotation.strings?_code code]
    exact strings?_quote _ _ stop

/-- Behind the URL the command has no strings but its own exactly when the verb has no quotes. -/
theorem strings?_verb (r : Request) :
    quotation.strings? none (r.verb.toList ++ ending r) = some (constants r) ↔
      ∀ c ∈ r.verb.toList, isQuote c = false := by
  constructor
  · intro h
    -- The strings account for the quotes of the ending, so none is left for the verb.
    have total := quotes_eq (Quotation.finds_of_strings? h)
    have same : quotes (ending r) = cost (constants r) := by
      unfold ending constants
      cases r.carriesBody <;> rfl
    rw [Option.elim_none, quotes_append, same] at total
    exact quotes_eq_zero_iff.mp (by omega)
  · intro plain
    have code : quotation.IsCode r.verb.toList := plain
    rw [Quotation.strings?_code code]
    unfold ending constants
    cases r.carriesBody <;> rfl

/-- The URL is read exactly when it is straight. -/
theorem strings?_call (r : Request) :
    quotation.strings? none (callChars r) = some (r.url :: constants r) ↔
      Straight r.url.toList ∧ ∀ c ∈ r.verb.toList, isQuote c = false := by
  have call : quotation.IsCode "\nInvoke-WebRequest -Uri ".toList := by decide
  have method : quotation.IsCode " -Method ".toList := by decide
  have stop : Stops (" -Method ".toList ++ (r.verb.toList ++ ending r)) :=
    stops_cons (c := ' ') rfl _
  have url := strings?_quote r.url (constants r) stop
  rw [Quotation.strings?_code method, strings?_verb] at url
  unfold callChars
  rw [Quotation.strings?_code call]
  exact url

/-- The texts that the strings of a command should stand for: the names and values of the headers,
the body if one is sent, and the URL. -/
def sentTexts (r : Request) (headers : Headers) : List String :=
  headers.texts ++ bodyTexts r ++ [r.url]

/-- PowerShell reads the strings of a command as the texts that are sent, and the type of the body
behind them as the constant that it is, exactly when no text that is sent holds a typographic quote
and the verb, which stands outside of strings, holds no quote at all. -/
theorem strings_command_iff (r : Request) (headers : Headers) :
    (∃ line, (format .powershell r headers).result = .ok line ∧
        quotation.ofSource? line = some (sentTexts r headers ++ constants r)) ↔
      (∀ text ∈ sentTexts r headers, Straight text.toList) ∧
        ∀ c ∈ r.verb.toList, isQuote c = false := by
  have opening : quotation.IsCode "$headers = @\x7b".toList := by decide
  have bracket : quotation.IsCode "\n\x7d".toList := by decide
  have inner : Stops (callChars r) := stops_cons (c := '\n') rfl _
  have outer : Stops ("\n\x7d".toList ++ (bodyChars r ++ callChars r)) :=
    stops_cons (c := '\n') rfl _
  have texts : sentTexts r headers ++ constants r =
      headers.texts ++ (bodyTexts r ++ r.url :: constants r) := by simp [sentTexts]
  rw [result_format]
  simp only [Except.ok.injEq, exists_eq_left']
  rw [Quotation.ofSource?, command, toList_powershellCall, Quotation.strings?_code opening, texts,
    strings?_headers outer, Quotation.strings?_code bracket, strings?_body inner, strings?_call]
  simp only [sentTexts, List.forall_mem_append, List.forall_mem_singleton, and_assoc]

/-- An apostrophe as word processors write it ends the string that a header is written as. -/
theorem apostrophe_ends_string :
    ¬∀ (r : Request) (headers : Headers), (∀ c ∈ r.verb.toList, c.isAlpha = true) →
      ∃ line, (format .powershell r headers).result = .ok line ∧
        quotation.ofSource? line = some (sentTexts r headers ++ constants r) := by
  intro all
  obtain ⟨line, result, strings⟩ :=
    all ⟨"GET", "https://api.example.com/pets", [], none⟩ [("X-Note", "it’s")]
      (List.all_eq_true.mp (by decide))
  rw [result_format] at result
  cases result
  revert strings
  decide +kernel

end Commands

end RequestWriter.PowerShell
