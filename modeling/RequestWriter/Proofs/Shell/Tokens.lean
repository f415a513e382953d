import RequestWriter.Proofs.Shell.Words
import RequestWriter.Proofs.Snippet.Agreement

/-!
# Words of joined tokens

A command of curl is a row of tokens with a separator between them: a blank, or a blank and a line
that is continued. Where a shell reads a separator outside of quotes, it ends a word and leaves
nothing else behind. So the words of the command are those of its tokens, whatever the separator,
if no token leaves a quote open or ends behind a backslash.

What the splitter does with a text depends on what follows through one thing only, the place at
which the text ends. `Quoting.after` is that place.
-/

namespace RequestWriter.Shell

/-- The place to which a character leads. -/
def Quoting.next : Quoting → Char → Quoting
  | .bare, c =>
    if c = '\'' then .single else if c = '"' then .double
    else if c = '\\' then .escaped false else .bare
  | .single, c => if c = '\'' then .bare else .single
  | .double, c => if c = '"' then .bare else if c = '\\' then .escaped true else .double
  | .escaped quoted, _ => .behind quoted

/-- The place to which a text leads. -/
def Quoting.after (q : Quoting) (cs : List Char) : Quoting := cs.foldl next q

/-- The text ends, read on its own, outside of quotes and not behind a backslash. -/
def IsClosed (s : String) : Prop := Quoting.bare.after s.toList = .bare

instance : DecidablePred IsClosed := fun s =>
  inferInstanceAs (Decidable (Quoting.bare.after s.toList = .bare))

/-- Outside of quotes the separator ends a word, and nothing of it gets into the next one. -/
def Separating (sep : List Char) : Prop :=
  ∀ word rest, split? .bare word (sep ++ rest) = (split? .bare none rest).map (ended word ++ ·)

variable {q : Quoting} {word : Option (List Char)} {sep : String}

theorem separating_blank : Separating " ".toList := by
  intro word rest
  simp [split?, separates]

/-- The line break behind the backslash is removed, and with it the backslash. -/
theorem separating_continuation : Separating continuation.toList := by
  intro word rest
  have chars : continuation.toList = [' ', '\\', '\n', ' ', ' '] := by decide
  rw [chars]
  simp [split?, separates, ended, Quoting.behind]

/-- A character ends some words and leaves some of the next one, whatever follows. -/
theorem split?_cons (q : Quoting) (word : Option (List Char)) (c : Char) :
    ∃ found word', ∀ rest,
      split? q word (c :: rest) = (split? (q.next c) word' rest).map (found ++ ·) := by
  -- A character that ends no word.
  have silent {q q' : Quoting} {word word' : Option (List Char)}
      (step : ∀ rest, split? q word (c :: rest) = split? q' word' rest) :
      ∃ found word', ∀ rest,
        split? q word (c :: rest) = (split? q' word' rest).map (found ++ ·) :=
    ⟨[], word', fun rest => by simp [step rest]⟩
  cases q with
  | bare =>
    by_cases separator : separates c = true
    · have plain : Quoting.bare.next c = .bare := by
        simp only [separates, Bool.or_eq_true, beq_iff_eq] at separator
        rcases separator with (rfl | rfl) | rfl <;> rfl
      rw [plain]
      exact ⟨ended word, none, fun rest => by simp [split?, separator]⟩
    · rw [Quoting.next]
      split_ifs with single double backslash
      · exact silent fun rest => by rw [split?, if_neg separator, if_pos single]
      · exact silent fun rest => by rw [split?, if_neg separator, if_neg single, if_pos double]
      · exact silent fun rest => by
          rw [split?, if_neg separator, if_neg single, if_neg double, if_pos backslash]
      · exact silent fun rest => by
          rw [split?, if_neg separator, if_neg single, if_neg double, if_neg backslash]
  | single =>
    rw [Quoting.next]
    split_ifs with quote
    · exact silent fun rest => by rw [split?, if_pos quote]
    · exact silent fun rest => by rw [split?, if_neg quote]
  | double =>
    rw [Quoting.next]
    split_ifs with quote backslash
    · exact silent fun rest => by rw [split?, if_pos quote]
    · exact silent fun rest => by rw [split?, if_neg quote, if_pos backslash]
    · exact silent fun rest => by rw [split?, if_neg quote, if_neg backslash]
  | escaped quoted =>
    rw [Quoting.next]
    by_cases newline : c = '\n'
    · exact silent fun rest => by rw [split?, if_pos newline]
    · by_cases plain : (quoted && !hasMeaning c) = true
      · exact silent fun rest => by rw [split?, if_neg newline, if_pos plain]
      · exact silent fun rest => by rw [split?, if_neg newline, if_neg plain]

/-- A text ends some words and leaves some of the next one, whatever follows. -/
theorem split?_append (q : Quoting) (word : Option (List Char)) (cs : List Char) :
    ∃ found word', ∀ rest,
      split? q word (cs ++ rest) = (split? (q.after cs) word' rest).map (found ++ ·) := by
  induction cs generalizing q word with
  | nil => exact ⟨[], word, fun rest => by simp [Quoting.after]⟩
  | cons c cs ih =>
    obtain ⟨first, word', step⟩ := split?_cons q word c
    obtain ⟨others, word'', run⟩ := ih (q.next c) word'
    refine ⟨first ++ others, word'', fun rest => ?_⟩
    rw [List.cons_append, step, run, Option.map_map]
    simp [Function.comp_def, Quoting.after]

/-- A closed text has words, and behind a separator the words of what follows come after them. -/
theorem words?_of_isClosed {s : String} (closed : IsClosed s) :
    ∃ ws, words? s = some ws ∧ ∀ sep, Separating sep → ∀ rest,
      split? .bare none (s.toList ++ (sep ++ rest)) = (split? .bare none rest).map (ws ++ ·) := by
  obtain ⟨found, word, run⟩ := split?_append .bare none s.toList
  rw [IsClosed] at closed
  rw [closed] at run
  refine ⟨found ++ ended word, ?_, fun sep separating rest => ?_⟩
  · have whole := run []
    rw [List.append_nil] at whole
    rw [words?, whole, split?, Option.map_some]
  · rw [run, separating, Option.map_map]
    simp [Function.comp_def]

/-- Closed tokens have words, and with separators between them they have the same words. -/
theorem words?_join (separating : Separating sep.toList) {tokens : List String}
    (closed : ∀ token ∈ tokens, IsClosed token) :
    ∃ words : List (List String), tokens.map words? = words.map some ∧
      words? (Text.join sep tokens) = some words.flatten := by
  induction tokens with
  | nil => exact ⟨[], rfl, rfl⟩
  | cons token tokens ih =>
    rw [List.forall_mem_cons] at closed
    obtain ⟨first, alone, followed⟩ := words?_of_isClosed closed.1
    obtain ⟨others, each, joined⟩ := ih closed.2
    refine ⟨first :: others, by simp [alone, each], ?_⟩
    cases tokens with
    | nil =>
      obtain rfl : others = [] := by simpa using each.symm
      simpa using alone
    | cons next tokens =>
      rw [words?, Text.join_cons_cons, String.toList_append, String.toList_append,
        List.append_assoc, followed _ separating, ← words?, joined]
      rfl

/-- The command on several lines and the command on a single line are the same words, those of the
tokens, if no token leaves a quote open or ends behind a backslash. -/
theorem words_multiline (r : Request) (headers : Headers)
    (closed : ∀ token ∈ curlTokens r headers, IsClosed token) :
    ∃ (words : List (List String)) (multiline single : String),
      (curlTokens r headers).map words? = words.map some ∧
        (format .multiline r headers).result = .ok multiline ∧
        words? multiline = some words.flatten ∧
        (format .single r headers).result = .ok single ∧
        words? single = some words.flatten := by
  obtain ⟨words, each, continued⟩ := words?_join separating_continuation closed
  obtain ⟨words', each', blank⟩ := words?_join separating_blank closed
  have same : words' = words :=
    (Option.some_injective _).list_map (each'.symm.trans each)
  rw [same] at blank
  exact ⟨words, _, _, each, result_format .multiline r headers, continued,
    result_format .single r headers, blank⟩

/-- The condition of `words_multiline` holds for tokens with an escaped quote, a continued line
between quotes and a body that leaves its quotes and comes back to them. -/
theorem requoted_multiline :
    let r : Request := ⟨"post", "https://api.example.com/?q=\\\"a b\\\"", [], some "it'\\''s\nfine"⟩
    let headers : Headers := [("X-Note", "one \\\ntwo")]
    (∀ token ∈ curlTokens r headers, IsClosed token) ∧
      ∃ line, (format .multiline r headers).result = .ok line ∧
        words? line = some ["curl", "-X", "POST", "https://api.example.com/?q=\"a b\"", "-H",
          "X-Note: one two", "-d", "it's\nfine"] := by
  intro r headers
  have closed : ∀ token ∈ curlTokens r headers, IsClosed token := by decide +kernel
  obtain ⟨words, multiline, single, -, written, continued, result, blank⟩ :=
    words_multiline r headers closed
  obtain rfl : command .single r headers = single := by
    rw [result_format] at result
    exact Except.ok.inj result
  refine ⟨closed, multiline, written, ?_⟩
  rw [continued, ← blank]
  decide +kernel

/-- Two tokens that each leave a quote open have more blanks between them on several lines. -/
example :
    let r : Request := ⟨"get", "a\"b", [], none⟩
    let headers : Headers := [("A", "c\"d")]
    words? (command .multiline r headers) = some ["curl", "-X", "GET", "ab   -H A:", "cd"] ∧
      words? (command .single r headers) = some ["curl", "-X", "GET", "ab -H A:", "cd"] := by
  decide +kernel

end RequestWriter.Shell
