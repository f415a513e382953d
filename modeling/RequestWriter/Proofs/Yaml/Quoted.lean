import RequestWriter.Proofs.Yaml.Cursor
import RequestWriter.Proofs.Yaml.Flow

/-!
# Strings between double quotes

The inside of a string of flow style, read by the reader of quoted scalars. A run of
spaces is one part to this reader, since a line end could follow it; so the induction is on the
number of parts and not on the characters.
-/

namespace RequestWriter.Yaml

open Json (Starts starts_cons escapeValue?_eq_some_iff hexDigit_lt unit?_eq_some_iff)
open Json.Grammar hiding Chars Denotes Text
open RequestWriter.Yaml.Flow (Chars escapes)

variable {c : Cursor} {t s r : List Char}

namespace Quoted

/-- The spaces at the front of a string stand for themselves. -/
theorem split_spaces (h : Chars t s) :
    ∃ k t' s', t = List.replicate k ' ' ++ t' ∧ s = List.replicate k ' ' ++ s' ∧
      Chars t' s' ∧ Starts (· ≠ ' ') t' := by
  induction h with
  | nil => exact ⟨0, [], [], rfl, rfl, .nil, by simp⟩
  | @plain c t s onLine noTab noQuote noBackslash rest ih =>
    by_cases space : c = ' '
    · obtain ⟨k, t', s', rfl, rfl, rest', other⟩ := ih
      exact ⟨k + 1, t', s', by rw [space]; rfl, by rw [space]; rfl, rest', other⟩
    · exact ⟨0, _, _, rfl, rfl, .plain onLine noTab noQuote noBackslash rest, by simpa using space⟩
  | escape letter rest => exact ⟨0, _, _, rfl, rfl, .escape letter rest, by simp⟩
  | code digits whole rest => exact ⟨0, _, _, rfl, rfl, .code digits whole rest, by simp⟩

/-- Spaces in front of another character of the line. -/
theorem blanks_spaces {k : Nat} {x : Char} (h : c.rest = List.replicate k ' ' ++ x :: r)
    (noBreak : isBreak x = false) (noBlank : isBlank x = false) :
    blanks c = .ok (List.replicate k ' ', c.skip k) := by
  have span := Cursor.span_append (p := isBlank) h
    (fun y hy => by rw [List.eq_of_mem_replicate hy]; rfl) (by simpa using noBlank)
  have rest := Cursor.rest_skip_length h
  rw [List.length_replicate] at span rest
  have line : (c.skip k).lineBreak = (none, c.skip k) :=
    Cursor.lineBreak_of_starts (by rw [rest]; simpa using noBreak)
  simp [blanks, span, Cursor.peek_of_rest rest, line]
  rfl

/-- The spaces at a place inside a string are one part of it. -/
theorem blanks_string (rest : Chars t s) (front : c.rest = ' ' :: t ++ '"' :: r) :
    ∃ k t' s', ' ' :: t = List.replicate (k + 1) ' ' ++ t' ∧
      ' ' :: s = List.replicate (k + 1) ' ' ++ s' ∧ Chars t' s' ∧
      blanks c = .ok (List.replicate (k + 1) ' ', c.skip (k + 1)) := by
  obtain ⟨k, t', s', rfl, rfl, rest', other⟩ := split_spaces rest
  refine ⟨k, t', s', rfl, rfl, rest', ?_⟩
  have run : c.rest = List.replicate (k + 1) ' ' ++ (t' ++ '"' :: r) := by
    rw [front, List.cons_append, List.append_assoc]
    rfl
  cases t' with
  | nil => exact blanks_spaces run rfl rfl
  | cons y t' =>
    obtain ⟨noBreak, noTab⟩ := rest'.onLine y List.mem_cons_self
    have noSpace := (starts_cons (· ≠ ' ') y t').mp other
    exact blanks_spaces run noBreak (by simp [isBlank, noSpace, noTab])

theorem escape_letter {e x : Char} (letter : (e, x) ∈ escapes) (h : c.rest = e :: r) :
    escape c = .ok ([x], c.skip 1) := by
  have values : ∀ pair ∈ escapes, escapeValue? pair.1 = some pair.2 :=
    List.all_iff_forall_prop.mp (by decide)
  have value := values _ letter
  dsimp only at value
  simp [escape, Cursor.peek_of_rest h, value]
  rfl

theorem codeUnit_lt {hex : List Char} {u : Nat} (h : CodeUnit hex u) : u < 0x10000 := by
  obtain ⟨first, second, third, fourth⟩ := h
  have := hexDigit_lt first
  have := hexDigit_lt second
  have := hexDigit_lt third
  have := hexDigit_lt fourth
  omega

/-- An escape by four digits. -/
theorem escape_unit {hex : List Char} {u : Nat} (digits : CodeUnit hex u)
    (h : c.rest = 'u' :: hex ++ r) : escape c = .ok ([Char.ofNat u], c.skip 5) := by
  obtain ⟨x, y, z, w, rfl⟩ : ∃ x y z w, hex = [x, y, z, w] := by
    cases digits
    exact ⟨_, _, _, _, rfl⟩
  have rest : c.next.rest = x :: y :: z :: w :: r := by
    rw [Cursor.rest_next, h]
    rfl
  have number : Text.hexNumber? 4 c.next.rest = some u := by
    have value := unit?_eq_some_iff.mpr digits
    rw [rest]
    simpa [Json.unit?, Text.hexNumber?] using value
  have code : ofCode u = .ok (Char.ofNat u) := by
    rw [ofCode, if_pos (by have := codeUnit_lt digits; omega)]
  have front : c.peek = some 'u' := Cursor.peek_of_rest h
  have letter : escapeValue? 'u' = none := rfl
  have length : codeLength? 'u' = some 4 := rfl
  simp only [escape, front, letter, length, number, code]
  rfl

/-- One part of a string, and what follows it. -/
theorem body_part {x : Char} {part : List Char} {bound n m : Nat} (h : c.rest = x :: r)
    (noQuote : x ≠ '"')
    (read : (if isBreak x || isBlank x then blanks c
      else if x = '\\' then escape (c.skip 1) else .ok ([x], c.skip 1)) = .ok (part, c.skip n))
    (others : body '"' bound (c.skip n) = .ok (s, c.skip m)) :
    body '"' (bound + 1) c = .ok (part ++ s, c.skip m) := by
  have behind : (body '"' bound (c.skip n) >>= fun p => pure (part ++ p.1, p.2)) =
      Except.ok (part ++ s, c.skip m) := by
    rw [others]
    rfl
  rw [body, Cursor.peek_of_rest h]
  simp only [noQuote, if_false, decide_true, Bool.true_and, decide_eq_true_eq]
  split at read
  · next blank =>
    rw [if_pos blank, read]
    exact behind
  · next notBlank =>
    rw [if_neg notBlank]
    split at read
    · next backslash =>
      rw [if_pos backslash, show c.next = c.skip 1 from rfl, read]
      exact behind
    · next noBackslash =>
      obtain ⟨rfl, place⟩ := Prod.mk.inj (Except.ok.inj read)
      rw [if_neg noBackslash, show c.next = c.skip n from place]
      exact behind

/-- An escape, and what follows it. -/
theorem body_escape {part : List Char} {bound n m : Nat} (h : c.rest = '\\' :: r)
    (read : escape (c.skip 1) = .ok (part, (c.skip 1).skip n))
    (others : body '"' bound (c.skip (1 + n)) = .ok (s, c.skip m)) :
    body '"' (bound + 1) c = .ok (part ++ s, c.skip m) := by
  rw [Cursor.skip_skip] at read
  exact body_part h (by decide) (by rw [if_neg (by decide), if_pos rfl, read]) others

/-- The inside of a string is read with its value. -/
theorem body_chars (h : Chars t s)
    {bound : Nat} (enough : t.length < bound)
    (front : c.rest = t ++ '"' :: r) : body '"' bound c = .ok (s, c.skip (t.length + 1)) := by
  induction bound generalizing t s c with
  | zero => omega
  | succ bound ih =>
    -- What follows a part that takes the characters `a`.
    have others : ∀ {a t' s' : List Char}, t = a ++ t' → a ≠ [] → Chars t' s' →
        body '"' bound (c.skip a.length) = .ok (s', c.skip (t.length + 1)) := by
      rintro a t' s' rfl nonempty rest
      have long : 0 < a.length := List.length_pos_iff.mpr nonempty
      have behind : (c.skip a.length).rest = t' ++ '"' :: r :=
        Cursor.rest_skip_length (by rw [front, List.append_assoc])
      rw [List.length_append] at enough
      rw [ih rest (by omega) behind,
        Cursor.skip_skip, List.length_append, Nat.add_assoc]
    cases h with
    | nil =>
      simp [body, Cursor.peek_of_rest front]
      rfl
    | @plain x t s noBreak noTab noQuote noBackslash rest =>
      by_cases space : x = ' '
      · subst space
        obtain ⟨k, t', s', whole, value, rest', read⟩ := blanks_string rest front
        have behind := others whole (by simp) rest'
        rw [List.length_replicate] at behind
        rw [value]
        exact body_part front noQuote (by rw [if_pos (by decide), read]) behind
      · have noBlank : isBlank x = false := by simp [isBlank, space, noTab]
        have read : (if isBreak x || isBlank x then blanks c
            else if x = '\\' then escape (c.skip 1) else .ok ([x], c.skip 1)) =
              .ok ([x], c.skip 1) := by
          rw [noBreak, noBlank, if_neg (by decide), if_neg noBackslash]
        exact body_part front noQuote read (others (a := [x]) rfl (by simp) rest)
    | @escape e x t s letter rest =>
      have read := escape_letter letter (c := c.skip 1) (by rw [Cursor.rest_skip, front]; rfl)
      exact body_escape front read (others (a := ['\\', e]) rfl (by simp) rest)
    | @code hex t s u digits whole rest =>
      have long : hex.length = 4 := by
        cases digits
        rfl
      have read := escape_unit digits (c := c.skip 1) (r := t ++ '"' :: r)
        (by rw [Cursor.rest_skip, front]; simp)
      have behind := others rfl (a := '\\' :: 'u' :: hex) (by simp) rest
      rw [List.length_cons, List.length_cons, long] at behind
      exact body_escape front read behind

/-- A string is read up to its closing mark. -/
theorem scalar_chars (h : Chars t s) (front : c.rest = '"' :: t ++ '"' :: r) :
    scalar '"' c = .ok (String.ofList s, c.skip (t.length + 2)) := by
  have rest : (c.skip 1).rest = t ++ '"' :: r := by
    rw [Cursor.rest_skip, front]
    rfl
  have read := body_chars h (show t.length < c.rest.length + 1 by simp [front]; omega) rest
  rw [Cursor.skip_skip, show 1 + (t.length + 1) = t.length + 2 by omega] at read
  rw [scalar, show c.next = c.skip 1 from rfl, read]
  rfl

end Quoted

end RequestWriter.Yaml
