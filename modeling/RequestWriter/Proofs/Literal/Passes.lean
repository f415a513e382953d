import RequestWriter.Proofs.Literal.Quoted
import RequestWriter.Proofs.Text.Search
import Mathlib.Data.List.Basic

/-!
# Escaping in passes

A text can be escaped character by character, or in three passes over the whole text that double the
backslashes, escape the delimiter and escape the newline, in this order. A later pass meets the
characters that an earlier one put in, so the order matters: the delimiter's own backslash must not
be doubled. In the order given both ways lead to the same literal, which says where it ends and
gives back its text.
-/

namespace RequestWriter

namespace Dialect

/-- A text after the three passes. A dialect leaves out the passes for which it has no escape. -/
def passes (d : Dialect) (s : String) : String :=
  let s := if d.escapesBackslash then Text.replace "\\" "\\\\" s else s
  let s := Text.replace (String.singleton d.delimiter) (String.ofList d.escapedDelimiter) s
  if d.escapesNewline then Text.replace "\n" "\\n" s else s

variable {d : Dialect}

/-- The passes of a dialect with backslashes, each as a rule for the characters that it meets. -/
theorem toList_passes_backslash (doubled : d.escapesBackslash = true)
    (newline : d.escapesNewline = true) (s : String) :
    (d.passes s).toList =
      ((s.toList.flatMap fun x => if x = '\\' then ['\\', '\\'] else [x]).flatMap
        fun x => if x = d.delimiter then d.escapedDelimiter else [x]).flatMap
          fun x => if x = '\n' then ['\\', 'n'] else [x] := by
  have backslashes : (Text.replace "\\" "\\\\" s).toList =
      s.toList.flatMap fun x => if x = '\\' then ['\\', '\\'] else [x] := by
    simpa using Text.toList_replace '\\' "\\\\" s
  have newlines (s : String) : (Text.replace "\n" "\\n" s).toList =
      s.toList.flatMap fun x => if x = '\n' then ['\\', 'n'] else [x] := by
    simpa using Text.toList_replace '\n' "\\n" s
  simp only [passes, doubled, newline, if_true, newlines, Text.toList_replace, backslashes,
    String.toList_ofList]

/-- What one pass puts in is left alone by the later ones, so escaping in passes is escaping
character by character. -/
theorem escape_eq_passes (h : d.Sound) (s : String) : d.escape s = d.passes s := by
  apply String.toList_inj.mp
  rw [escape, String.toList_ofList]
  cases h with
  | doubled backslash newline delimiter =>
    simp only [passes, backslash, newline, if_false, Bool.false_eq_true, Text.toList_replace,
      String.toList_ofList]
    refine List.flatMap_congr fun c _ => ?_
    simp [escapeChar, backslash, newline]
  | backslash doubled newline delimiter noBackslash noLetter noNewline =>
    rw [toList_passes_backslash doubled newline, List.flatMap_assoc, List.flatMap_assoc]
    refine List.flatMap_congr fun c _ => ?_
    by_cases isBackslash : c = '\\'
    · simp [escapeChar, isBackslash, doubled, Ne.symm noBackslash]
    · by_cases isDelimiter : c = d.delimiter
      · simp [escapeChar, isDelimiter, noBackslash, delimiter, noNewline]
      · by_cases isNewline : c = '\n'
        · subst isNewline
          simp [escapeChar, isDelimiter, newline]
        · simp [escapeChar, isBackslash, isDelimiter, isNewline]

/-- Two texts with one escaped form are the same text: the form can be read back. -/
theorem escape_injective (h : d.Sound) : Function.Injective d.escape := by
  intro s s' same
  have bodies : s.toList.flatMap d.escapeChar = s'.toList.flatMap d.escapeChar := by
    simpa [escape] using congrArg String.toList same
  have closes : d.Closes [] := fun _ => nofun
  have read := unquote?_escaped h s.toList closes
  rw [bodies, unquote?_escaped h s'.toList closes] at read
  simp only [Option.some.injEq, Prod.mk.injEq, and_true] at read
  exact String.toList_inj.mp read.symm

end Dialect

namespace Target

/-- What two characters inside a literal stand for, if they belong together: behind a backslash a
backslash, the delimiter, or the letter of the newline; in PowerShell a delimiter twice. -/
def pair? (t : Target) (a b : Char) : Option Char :=
  let q := t.dialect.delimiter
  match t with
  | .powershell => if a = q ∧ b = q then some q else none
  | _ =>
    if a ≠ '\\' then none
    else if b = '\\' then some '\\'
    else if b = q then some q
    else if b = 'n' then some '\n'
    else none

theorem unescape?_eq_pair? (t : Target) : t.dialect.unescape? = t.pair? := by
  funext a b
  cases t with
  | powershell =>
    by_cases doubled : a = '\'' ∧ b = '\'' <;>
      simp [Dialect.unescape?, pair?, dialect, doubled]
  | _ =>
    by_cases escapes : a = '\\'
    · simp only [Dialect.unescape?, pair?, dialect, escapes, List.cons.injEq]
      split_ifs <;> simp_all
    · simp [Dialect.unescape?, pair?, dialect, escapes]

/-- A literal ends where it was ended and stands for the text that was quoted, whatever follows it;
where the delimiter is escaped by doubling it, what follows must not begin with another one. Its
text between the delimiters is what the three passes make of the text that was quoted, no two texts
have one escaped form, and the reader knows no other escapes than those of `pair?`. -/
theorem quote_delimits (t : Target) (s r : String)
    (apart : t = .powershell → r.toList.head? ≠ some '\'') :
    (∃ body, (t.dialect.quote s ++ r).toList = t.dialect.delimiter :: body ∧
        t.dialect.unquote? body = some (s.toList, r.toList)) ∧
      (t.dialect.quote s).toList =
        t.dialect.delimiter :: ((t.dialect.passes s).toList ++ [t.dialect.delimiter]) ∧
      Function.Injective t.dialect.escape ∧ t.dialect.unescape? = t.pair? := by
  have closes : t.dialect.Closes r.toList := by
    intro doubled
    cases t with
    | powershell => exact apart rfl
    | _ => cases doubled
  refine ⟨⟨_, ?_, Dialect.unquote?_escaped t.sound s.toList closes⟩, ?_,
    Dialect.escape_injective t.sound, t.unescape?_eq_pair?⟩
  · rw [String.toList_append, Dialect.toList_quote]
    simp
  · rw [Dialect.toList_quote, ← Dialect.escape_eq_passes t.sound, Dialect.escape,
      String.toList_ofList]

/-- The condition of `quote_delimits` holds for a text that ends with quotes, in front of code. -/
theorem quoted_before_code :
    (Target.powershell = .powershell → " 'b'".toList.head? ≠ some '\'') ∧
      ∃ body, (Target.powershell.dialect.quote "it's\\n\n''" ++ " 'b'").toList = '\'' :: body ∧
        Target.powershell.dialect.unquote? body = some ("it's\\n\n''".toList, " 'b'".toList) := by
  have apart : Target.powershell = .powershell → " 'b'".toList.head? ≠ some '\'' := by decide
  exact ⟨apart, (quote_delimits .powershell "it's\\n\n''" " 'b'" apart).1⟩

end Target

end RequestWriter
