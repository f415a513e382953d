import RequestWriter.Proofs.Shell.Words
import RequestWriter.Proofs.Snippet.Agreement

/-!
# Words of a curl command

The curl command on a single line writes its URL and headers between double quotes and its body
between single quotes, and changes nothing inside of them. So a shell reads the words that are
meant exactly when every text stands for itself between its quotes; a text that does not ends a
word early, loses a backslash or joins two words.
-/

namespace RequestWriter.Shell

/-- Whether a text stands for itself between double quotes: it holds no such quote, and behind each
of its backslashes stands a character that has no meaning there. -/
def survives : List Char → Bool
  | [] => true
  | c :: rest => c != '"' && (c != '\\' || rest.head?.any (!hasMeaning ·)) && survives rest

variable {q : Quoting} {cs s rest tail : List Char} {ws : List String}

theorem survives_cons {c : Char} (noQuote : c ≠ '"') (noBackslash : c ≠ '\\') :
    survives (c :: s) = survives s := by
  simp [survives, noQuote, noBackslash]

theorem survives_backslash {c : Char} :
    survives ('\\' :: c :: s) = true ↔ hasMeaning c = false ∧ survives s = true := by
  have meanings : hasMeaning c = false → c ≠ '"' ∧ c ≠ '\\' := by
    intro h
    constructor <;> (rintro rfl; cases h)
  constructor
  · intro h
    simp only [survives, List.head?_cons, Option.any_some, Bool.and_eq_true, bne_iff_ne,
      Bool.or_eq_true, Bool.not_eq_true'] at h
    obtain ⟨⟨-, none | plain⟩, -, more⟩ := h
    · exact absurd rfl none
    · exact ⟨plain, more⟩
  · rintro ⟨plain, more⟩
    obtain ⟨noQuote, noBackslash⟩ := meanings plain
    simp [survives, plain, noQuote, noBackslash, more]

section Quotes

/-- Outside of quotes a spelling that loses nothing has nothing to lose. -/
theorem isBare_of_spells (h : Spells .bare cs s) (same : cs.length = s.length) :
    ∀ c ∈ cs, isBare c = true := by
  generalize outside : Quoting.bare = q at h
  induction h with
  | done => simp
  | @bare c cs s plain _ ih =>
    simp only [List.length_cons, Nat.add_right_cancel_iff] at same
    rw [List.forall_mem_cons]
    exact ⟨plain, ih same rfl⟩
  | openSingle more | openDouble more | escapeBare more =>
    have := more.length_le
    simp only [List.length_cons] at same
    omega
  | _ => cases outside

/-- The closing quote is the last character of a spelling that loses just one. -/
theorem not_spells_quote {c : Char} (quote : isBare c = false) :
    ¬Spells .bare (s ++ [c]) (c :: s) := by
  intro h
  have plain := isBare_of_spells h (by simp) c (by simp)
  rw [quote] at plain
  cases plain

theorem spells_single_iff : Spells .single (s ++ ['\'']) s ↔ '\'' ∉ s := by
  induction s with
  | nil => exact ⟨fun _ => List.not_mem_nil, fun _ => .closeSingle .done⟩
  | cons c s ih =>
    rw [List.cons_append, List.mem_cons, not_or]
    constructor
    · intro h
      cases h with
      | single plain more => exact ⟨Ne.symm plain, ih.mp more⟩
      | closeSingle more => exact absurd more (not_spells_quote rfl)
    · rintro ⟨plain, later⟩
      exact .single (Ne.symm plain) (ih.mpr later)

theorem spells_double_of_survives (h : survives s = true) : Spells .double (s ++ ['"']) s := by
  induction s using survives.induct with
  | case1 => exact .closeDouble .done
  | case2 c s ih =>
    by_cases backslash : c = '\\'
    · subst backslash
      cases s with
      | nil => cases h
      | cons d s =>
        obtain ⟨plain, later⟩ := survives_backslash.mp h
        have noQuote : d ≠ '"' := by
          rintro rfl
          cases plain
        have noBackslash : d ≠ '\\' := by
          rintro rfl
          cases plain
        have more := ih (by rwa [survives_cons noQuote noBackslash])
        rw [List.cons_append] at more
        cases more with
        | double _ _ more => exact .escapeDouble (.kept plain more)
        | closeDouble => exact absurd rfl noQuote
        | escapeDouble => exact absurd rfl noBackslash
    · have noQuote : c ≠ '"' := by
        rintro rfl
        cases h
      rw [survives_cons noQuote backslash] at h
      exact .double noQuote backslash (ih h)

/-- The backslash that has been read in front of a place. -/
def Quoting.pending : Quoting → List Char
  | .escaped _ => ['\\']
  | _ => []

/-- Only the quote at the end gets lost. -/
theorem survives_of_spells (h : Spells q cs s) (inside : q = .double ∨ q = .escaped true)
    (whole : q.pending ++ cs = s ++ ['"']) : survives s = true := by
  have lengths := congrArg List.length whole
  induction h with
  | double noQuote noBackslash _ ih =>
    obtain ⟨-, rest⟩ := List.cons.inj whole
    rw [survives_cons noQuote noBackslash]
    exact ih (.inl rfl) rest (congrArg List.length rest)
  | @closeDouble cs s more =>
    cases s with
    | nil => rfl
    | cons c s =>
      obtain ⟨rfl, rfl⟩ := List.cons.inj whole
      exact absurd more (not_spells_quote rfl)
  | escapeDouble _ ih => exact ih (.inr rfl) whole lengths
  | @kept c cs s plain _ ih =>
    obtain ⟨-, rest⟩ := List.cons.inj whole
    obtain ⟨-, rest⟩ := List.cons.inj rest
    exact survives_backslash.mpr ⟨plain, ih (.inl rfl) rest (congrArg List.length rest)⟩
  | @continued quoted cs s more | @taken quoted c cs s _ _ more =>
    obtain rfl : quoted = true := by simpa using inside
    have := more.length_le
    simp [Quoting.pending, Quoting.behind, Quoting.cost] at lengths this
    omega
  | _ => simp at inside

theorem spells_double_iff : Spells .double (s ++ ['"']) s ↔ survives s = true :=
  ⟨fun h => survives_of_spells h (.inl rfl) rfl, spells_double_of_survives⟩

end Quotes

section Tokens

/-- A text between quotes is one word, and that very text, exactly when it spells itself up to the
closing quote. Otherwise another word, or none, is split off in its place. -/
theorem split?_enclosed {mark : Char} (cost : q.cost = 1)
    (opens : ∀ cs, split? .bare none (mark :: cs) = split? q (some []) cs)
    (blank : ∀ c, tail.head? = some c → c = ' ') :
    split? .bare none (mark :: (s ++ mark :: tail)) = some (String.ofList s :: ws) ↔
      Spells q (s ++ [mark]) s ∧ split? .bare none tail = some ws := by
  have shape : s ++ mark :: tail = s ++ [mark] ++ tail := by simp
  rw [opens, shape]
  constructor
  · intro h
    obtain ⟨front, rest, text, others, parts, spelled, -, words, split⟩ := found_of_split? h
    obtain ⟨word, rfl⟩ := List.cons.inj words
    rw [List.nil_append, String.ofList_inj] at word
    subst word
    have longer := spelled.length_le
    -- The word ends at the closing quote: a blank behind it would have to get lost inside of the
    -- word, and without the closing quote too few characters would.
    rcases List.append_eq_append_iff.mp parts with ⟨more, rfl, rfl⟩ | ⟨more, eq, rfl⟩
    · cases more with
      | nil =>
        rw [List.append_nil] at spelled
        exact ⟨spelled, split⟩
      | cons c more =>
        obtain rfl : c = ' ' := blank c rfl
        have blanks := spelled.count_blank
        rw [List.count_append, List.count_append, List.count_cons_self] at blanks
        omega
    · have whole := congrArg List.length eq
      simp only [List.length_append, List.length_cons, List.length_nil] at whole
      obtain rfl : more = [] := List.length_eq_zero_iff.mp (by omega)
      rw [List.append_nil] at eq
      rw [eq]
      exact ⟨spelled, split⟩
  · rintro ⟨spelled, split⟩
    have stop : Stops tail := by
      intro c h
      rw [blank c h]
      rfl
    rw [split?_of_spells spelled stop, split]
    rfl

theorem split?_blank (cs : List Char) : split? .bare none (' ' :: cs) = split? .bare none cs := by
  simp [split?, separates, ended]

theorem spells_bare (bare : ∀ c ∈ s, isBare c = true) : Spells .bare s s := by
  induction s with
  | nil => exact .done
  | cons c s ih =>
    rw [List.forall_mem_cons] at bare
    exact .bare bare.1 (ih bare.2)

/-- A word without quotes and backslashes stands for itself. -/
theorem split?_bare {c : Char} (bare : ∀ d ∈ c :: s, isBare d = true) (cs : List Char) :
    split? .bare none (c :: (s ++ ' ' :: cs)) =
      (split? .bare none cs).map (String.ofList (c :: s) :: ·) := by
  rw [List.forall_mem_cons] at bare
  obtain ⟨first, others⟩ := bare
  obtain ⟨separator, single, double, backslash⟩ := isBare_iff.mp first
  have stop : Stops (' ' :: cs) := stops_cons rfl cs
  have word := split?_of_spells (spells_bare others) stop [c]
  rw [split?_blank] at word
  simpa [split?, separator, single, double, backslash] using word

/-- An option of one letter and its text between quotes. -/
def optionChars (letter mark : Char) (text : List Char) : List Char :=
  ' ' :: '-' :: letter :: ' ' :: mark :: (text ++ [mark])

theorem split?_option {letter mark : Char} (bare : isBare letter = true) (cost : q.cost = 1)
    (opens : ∀ cs, split? .bare none (mark :: cs) = split? q (some []) cs)
    (blank : ∀ c, tail.head? = some c → c = ' ') :
    split? .bare none (optionChars letter mark s ++ tail) =
        some (String.ofList ['-', letter] :: String.ofList s :: ws) ↔
      Spells q (s ++ [mark]) s ∧ split? .bare none tail = some ws := by
  have plain : ∀ c ∈ ['-', letter], isBare c = true := by
    simpa using ⟨rfl, bare⟩
  have word := split?_bare plain (mark :: (s ++ mark :: tail))
  have shape : optionChars letter mark s ++ tail =
      ' ' :: '-' :: ([letter] ++ ' ' :: mark :: (s ++ mark :: tail)) := by
    simp [optionChars]
  rw [← split?_enclosed cost opens blank, shape, split?_blank, word]
  simp

theorem opens_double (cs : List Char) :
    split? .bare none ('"' :: cs) = split? .double (some []) cs := by
  simp [split?, separates]

theorem opens_single (cs : List Char) :
    split? .bare none ('\'' :: cs) = split? .single (some []) cs := by
  simp [split?, separates]

end Tokens

section Line

/-- The line of a header. -/
def headerLine (header : String × String) : String := header.1 ++ ": " ++ header.2

/-- The words that send the headers. -/
def headerWords (headers : Headers) : List String :=
  headers.flatMap fun header => ["-H", headerLine header]

/-- The words that send the body, if one is sent. -/
def bodyWords (r : Request) : List String :=
  match r.sentBody? with
  | some body => ["-d", Body.compact body]
  | none => []

/-- The words that a request and its final headers should give. -/
def curlWords (r : Request) (headers : Headers) : List String :=
  ["curl", "-X", r.verb, r.url] ++ headerWords headers ++ bodyWords r

/-- The part of the command that sends the headers. -/
def headerChars (headers : Headers) : List Char :=
  headers.flatMap fun header => optionChars 'H' '"' (headerLine header).toList

/-- The part of the command that sends the body. -/
def bodyChars (r : Request) : List Char :=
  match r.sentBody? with
  | some body => optionChars 'd' '\'' (Body.compact body).toList
  | none => []

variable {r : Request}

/-- Between two tokens stands a blank. -/
theorem toList_join_blank (token : String) (tokens : List String) :
    (Text.join " " (token :: tokens)).toList =
      token.toList ++ tokens.flatMap (' ' :: ·.toList) :=
  Text.toList_join_cons " " token tokens

theorem toList_single (r : Request) (headers : Headers) :
    (command .single r headers).toList =
      ['c', 'u', 'r', 'l'] ++ ' ' :: (['-', 'X'] ++ ' ' :: (r.verb.toList ++
        ' ' :: '"' :: (r.url.toList ++ '"' :: (headerChars headers ++ bodyChars r)))) := by
  have others : headers.flatMap (fun header =>
      ' ' :: ("-H \"" ++ header.1 ++ ": " ++ header.2 ++ "\"").toList) = headerChars headers := by
    simp [headerChars, optionChars, headerLine]
  rw [command, curlTokens, List.append_assoc, List.cons_append, toList_join_blank,
    List.cons_append, List.flatMap_cons, List.nil_append, List.flatMap_append, List.flatMap_map,
    others, bodyChars]
  cases r.sentBody? <;> simp [optionChars]

theorem head?_headerChars (blank : ∀ c, tail.head? = some c → c = ' ') (headers : Headers) :
    ∀ c, (headerChars headers ++ tail).head? = some c → c = ' ' := by
  cases headers with
  | nil => exact blank
  | cons header headers =>
    rintro c ⟨⟩
    rfl

/-- The headers are read exactly when each of their lines stands for itself. -/
theorem split?_headers (blank : ∀ c, tail.head? = some c → c = ' ') (headers : Headers) :
    split? .bare none (headerChars headers ++ tail) =
        some (headerWords headers ++ ws) ↔
      (∀ header ∈ headers, survives (headerLine header).toList = true) ∧
        split? .bare none tail = some ws := by
  induction headers with
  | nil => simp [headerChars, headerWords]
  | cons header headers ih =>
    have next := @split?_option .double (headerLine header).toList (headerChars headers ++ tail)
      (headerWords headers ++ ws) 'H' '"' rfl rfl opens_double (head?_headerChars blank headers)
    rw [ih, spells_double_iff, ← List.append_assoc] at next
    rw [List.forall_mem_cons, and_assoc]
    simpa [headerChars, headerWords] using next

/-- The body is read exactly when it holds no single quote. -/
theorem split?_body :
    split? .bare none (bodyChars r) = some (bodyWords r) ↔
      ∀ body, r.sentBody? = some body → '\'' ∉ (Body.compact body).toList := by
  unfold bodyChars bodyWords
  cases r.sentBody? with
  | none => simp [split?, ended]
  | some body =>
    have only := @split?_option .single (Body.compact body).toList [] [] 'd' '\'' rfl rfl
      opens_single (by simp)
    rw [spells_single_iff] at only
    simpa [split?, ended] using only

theorem head?_bodyChars : ∀ c, (bodyChars r).head? = some c → c = ' ' := by
  unfold bodyChars
  cases r.sentBody? with
  | none => simp
  | some body =>
    rintro c ⟨⟩
    rfl

theorem isBare_of_isAlpha {c : Char} (letter : c.isAlpha = true) : isBare c = true := by
  rw [isBare_iff]
  refine ⟨?_, ?_, ?_, ?_⟩
  · by_contra separator
    simp only [separates, Bool.or_eq_false_iff, not_and_or, Bool.not_eq_false, beq_iff_eq]
      at separator
    rcases separator with (rfl | rfl) | rfl <;> cases letter
  all_goals
    rintro rfl
    cases letter

/-- In front of the URL stand words without quotes. -/
theorem words?_single_iff (headers : Headers) (nonempty : r.verb ≠ "")
    (letters : ∀ c ∈ r.verb.toList, c.isAlpha = true) :
    words? (command .single r headers) = some (curlWords r headers) ↔
      split? .bare none ('"' :: (r.url.toList ++ '"' :: (headerChars headers ++ bodyChars r))) =
        some (r.url :: (headerWords headers ++ bodyWords r)) := by
  obtain ⟨c, verb, verbChars⟩ : ∃ c verb, r.verb.toList = c :: verb :=
    List.exists_cons_of_ne_nil (by simpa using nonempty)
  rw [verbChars] at letters
  have curl := split?_bare (c := 'c') (s := ['u', 'r', 'l']) (List.all_eq_true.mp rfl)
    (['-', 'X'] ++ ' ' :: (r.verb.toList ++
      ' ' :: '"' :: (r.url.toList ++ '"' :: (headerChars headers ++ bodyChars r))))
  have option := split?_bare (c := '-') (s := ['X']) (List.all_eq_true.mp rfl) (r.verb.toList ++
    ' ' :: '"' :: (r.url.toList ++ '"' :: (headerChars headers ++ bodyChars r)))
  have sent := split?_bare (fun d mem => isBare_of_isAlpha (letters d mem))
    ('"' :: (r.url.toList ++ '"' :: (headerChars headers ++ bodyChars r)))
  rw [words?, toList_single]
  simp only [List.cons_append, List.nil_append, verbChars] at curl option sent ⊢
  rw [curl, option, sent, ← verbChars, String.ofList_toList]
  simp [curlWords]

/-- A shell reads the words of the command on a single line exactly when the URL and every header
line stand for themselves between double quotes and the body holds no single quote. -/
theorem words_single (r : Request) (headers : Headers) (nonempty : r.verb ≠ "")
    (letters : ∀ c ∈ r.verb.toList, c.isAlpha = true) :
    (∃ line, (format .single r headers).result = .ok line ∧
        words? line = some (curlWords r headers)) ↔
      survives r.url.toList = true ∧
        (∀ header ∈ headers, survives (headerLine header).toList = true) ∧
          ∀ body, r.sentBody? = some body → '\'' ∉ (Body.compact body).toList := by
  have url := @split?_enclosed .double r.url.toList (headerChars headers ++ bodyChars r)
    (headerWords headers ++ bodyWords r) '"' rfl opens_double
    (head?_headerChars head?_bodyChars headers)
  rw [split?_headers head?_bodyChars, split?_body, spells_double_iff, String.ofList_toList] at url
  rw [result_format, ← url, ← words?_single_iff headers nonempty letters]
  simp

/-- Quotes of the other kind, blanks, line ends and a backslash in front of a letter stay. -/
theorem quoted_words :
    let r : Request := ⟨"post", "https://api.example.com/it's?a=b c\\d", [], some "\"a b\"\\\n-d"⟩
    ∃ line, (format .single r [("X-Trace", "'a' -H")]).result = .ok line ∧
      words? line = some (curlWords r [("X-Trace", "'a' -H")]) :=
  (words_single _ _ (by decide) (List.all_eq_true.mp (by decide))).mpr
    ⟨by decide, by decide, fun body sent => by cases sent; decide +kernel⟩

/-- A single quote in the body ends the word it stands in. -/
theorem unquoted_body :
    ¬∀ (r : Request) (headers : Headers), r.verb ≠ "" →
      (∀ c ∈ r.verb.toList, c.isAlpha = true) →
        ∃ line, (format .single r headers).result = .ok line ∧
          words? line = some (curlWords r headers) := by
  intro all
  obtain ⟨line, result, words⟩ :=
    all ⟨"POST", "https://api.example.com/notes", [], some "\x7b\"note\":\"it's\"\x7d"⟩ []
      (by decide) (List.all_eq_true.mp (by decide))
  rw [result_format] at result
  cases result
  revert words
  decide +kernel

end Line

end RequestWriter.Shell
