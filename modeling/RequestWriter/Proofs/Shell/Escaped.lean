import RequestWriter.Proofs.Shell.Command

/-!
# Tokens between double quotes

The escaped command puts each token of the curl command between double quotes, and the tokens hold
quotes, blanks, backslashes and newlines of their own. The text is read as words between double
quotes with exactly one blank between each two, with the escapes of the shell row. Reading it
undoes the writing for every list of tokens, so no token is cut in two or run into the next one.
-/

namespace RequestWriter.Shell

/-- The words of a source that consists of literals with one blank between each two. -/
def spaced? : List Piece → Option (List String)
  | [.literal word] => some [word]
  | .literal word :: .code ' ' :: rest => (spaced? rest).map (word :: ·)
  | _ => none

/-- The words of a text that consists of words between double quotes, with one blank between each
two. -/
def quotedWords? (text : String) : Option (List String) :=
  (Piece.ofSource? Target.shell.dialect text).bind spaced?

variable {words : List String}

/-- Words as literals with one blank between each two. -/
def pieces (words : List String) : List Piece :=
  (words.map Piece.literal).intersperse (.code ' ')

theorem spaced?_pieces (nonempty : words ≠ []) : spaced? (pieces words) = some words := by
  induction words with
  | nil => exact absurd rfl nonempty
  | cons word words ih =>
    cases words with
    | nil => rfl
    | cons next words =>
      have others := ih (by simp)
      simp only [pieces, List.map_cons, List.intersperse_cons_cons, spaced?] at others ⊢
      rw [others, Option.map_some]

theorem escapeToken_eq_quote (token : String) :
    escapeToken token = Target.shell.dialect.quote token := by
  simp [escapeToken, Dialect.escape, Dialect.quote, Target.dialect, ← String.toList_inj]

theorem scans_token (token : String) :
    Piece.Scans Target.shell.dialect (escapeToken token) [.literal token] := by
  rw [escapeToken_eq_quote]
  exact Piece.scans_quote Target.shell.sound rfl token

/-- Tokens between double quotes give these tokens. -/
theorem scans_tokens (tokens : List String) :
    Piece.Scans Target.shell.dialect (Text.join " " (tokens.map escapeToken)) (pieces tokens) := by
  induction tokens with
  | nil => exact Piece.scans_code (s := "") (by decide)
  | cons token tokens ih =>
    cases tokens with
    | nil => exact scans_token token
    | cons next tokens =>
      have blank : Piece.Scans Target.shell.dialect " " [.code ' '] :=
        Piece.scans_code (s := " ") (by decide)
      exact ((scans_token token).append blank).append ih

theorem quotedWords?_join {tokens : List String} (nonempty : tokens ≠ []) :
    quotedWords? (Text.join " " (tokens.map escapeToken)) = some tokens := by
  have whole := scans_tokens tokens []
  rw [List.append_nil, Piece.split?, Option.map_some, List.append_nil] at whole
  rw [quotedWords?, Piece.ofSource?, whole, Option.bind_some, spaced?_pieces nonempty]

theorem newline_notMem_join (tokens : List String) :
    '\n' ∉ (Text.join " " (tokens.map escapeToken)).toList := by
  have token : ∀ token, '\n' ∉ (escapeToken token).toList := by
    intro token
    rw [escapeToken_eq_quote]
    exact Dialect.newline_notMem_quote Target.shell.sound rfl token
  cases tokens with
  | nil => simp
  | cons first tokens =>
    rw [List.map_cons, toList_join_blank]
    simp [token]

/-- The escaped command is read back as the tokens of the curl command, all of them in their order
and nothing else, and it stands on one line. -/
theorem escaped_reads_back (r : Request) (headers : Headers) :
    ∃ text, (format .escaped r headers).result = .ok text ∧
      quotedWords? text = some (curlTokens r headers) ∧ '\n' ∉ text.toList := by
  have nonempty : curlTokens r headers ≠ [] := by simp [curlTokens]
  exact ⟨_, result_format .escaped r headers, quotedWords?_join nonempty,
    newline_notMem_join (curlTokens r headers)⟩

/-- Words that stand next to each other, or with more than one blank between them, are not read. -/
example : quotedWords? "\"a\"\"b\"" = none ∧ quotedWords? "\"a\"  \"b\"" = none := by decide +kernel

end RequestWriter.Shell
