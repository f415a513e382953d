import RequestWriter.Text.Base64
import Mathlib.Data.List.Basic

/-!
# Base 64 read back

A strict reader, for which every text has one form: whole groups of four characters of the alphabet,
of which only the last one may be filled with equals signs, and no bit set that is not part of an
octet. What it reads is exactly what is written, so writing loses nothing and nothing else is taken
for a written text.
-/

namespace RequestWriter.Text

/-- The octets that a text encodes, if it is the form of some octets. A group that is filled with
equals signs is the last one, and its bits behind the last octet are zero. -/
def base64Octets? : List Char → Option (List UInt8)
  | [] => some []
  | a :: b :: c :: d :: rest =>
    match sextetValue? a, sextetValue? b, sextetValue? c, sextetValue? d with
    | some w, some x, some y, some z =>
      (base64Octets? rest).map (octetsOfSextets [w, x, y, z] ++ ·)
    | some w, some x, some y, none =>
      if d = '=' ∧ rest = [] ∧ y % 4 = 0 then some (octetsOfSextets [w, x, y]) else none
    | some w, some x, none, none =>
      if c = '=' ∧ d = '=' ∧ rest = [] ∧ x % 16 = 0 then some (octetsOfSextets [w, x]) else none
    | _, _, _, _ => none
  | _ => none

section Alphabet

theorem base64Alphabet_eq : base64Alphabet =
    ['A', 'B', 'C', 'D', 'E', 'F', 'G', 'H', 'I', 'J', 'K', 'L', 'M', 'N', 'O', 'P', 'Q', 'R', 'S',
      'T', 'U', 'V', 'W', 'X', 'Y', 'Z', 'a', 'b', 'c', 'd', 'e', 'f', 'g', 'h', 'i', 'j', 'k', 'l',
      'm', 'n', 'o', 'p', 'q', 'r', 's', 't', 'u', 'v', 'w', 'x', 'y', 'z', '0', '1', '2', '3', '4',
      '5', '6', '7', '8', '9', '+', '/'] := String.toList_ofList

theorem length_base64Alphabet : base64Alphabet.length = 64 := by
  rw [base64Alphabet_eq]
  rfl

theorem nodup_base64Alphabet : base64Alphabet.Nodup := by
  rw [base64Alphabet_eq]
  decide

/-- The alphabet is letters and digits of ASCII and two signs. -/
theorem mem_base64Alphabet {c : Char} (h : c ∈ base64Alphabet) :
    c.isAlphanum = true ∨ c = '+' ∨ c = '/' := by
  have all : (base64Alphabet.all fun c => c.isAlphanum || c == '+' || c == '/') = true := by
    rw [base64Alphabet_eq]
    decide
  simpa [or_assoc] using List.all_eq_true.mp all c h

theorem sextet_eq_getElem {n : Nat} (inside : n < base64Alphabet.length) :
    sextet n = base64Alphabet[n] := by
  have small : n < 64 := length_base64Alphabet ▸ inside
  rw [sextet, Nat.mod_eq_of_lt small, List.getD_eq_getElem?_getD, List.getElem?_eq_getElem inside,
    Option.getD_some]

theorem sextet_mem (n : Nat) : sextet n ∈ base64Alphabet := by
  have inside : n % 64 < base64Alphabet.length :=
    length_base64Alphabet.symm ▸ Nat.mod_lt n (by decide)
  have same : sextet n = sextet (n % 64) := by rw [sextet, sextet, Nat.mod_mod]
  rw [same, sextet_eq_getElem inside]
  exact List.getElem_mem _

/-- A character has the value at which it stands in the alphabet. -/
theorem sextetValue?_sextet {n : Nat} (h : n < 64) : sextetValue? (sextet n) = some n := by
  have inside : n < base64Alphabet.length := length_base64Alphabet ▸ h
  have place : base64Alphabet.idxOf (sextet n) = n := by
    rw [sextet_eq_getElem inside]
    exact nodup_base64Alphabet.idxOf_getElem n _
  rw [sextetValue?, place, if_pos h]

theorem sextetValue?_equals : sextetValue? '=' = none := by
  rw [sextetValue?, base64Alphabet_eq]
  rfl

end Alphabet

section RoundTrip

/-- What is written is read back. -/
theorem base64Octets?_base64 (bytes : List UInt8) : base64Octets? (base64 bytes) = some bytes := by
  have octet : ∀ a : UInt8, a.toNat < 256 := fun a => a.toNat_lt
  have back : ∀ (a : UInt8) {n : Nat}, n = a.toNat → UInt8.ofNat n = a := by
    rintro a _ rfl
    exact UInt8.ofNat_toNat
  fun_induction base64 bytes with
  | case1 => rfl
  | case2 a =>
    have := octet a
    rw [base64Octets?, sextetValue?_sextet (by omega), sextetValue?_sextet (by omega),
      sextetValue?_equals]
    dsimp only
    rw [if_pos ⟨rfl, rfl, rfl, by omega⟩, octetsOfSextets, back a (by omega)]
  | case3 a b =>
    have := octet a
    have := octet b
    rw [base64Octets?, sextetValue?_sextet (by omega), sextetValue?_sextet (by omega),
      sextetValue?_sextet (by omega), sextetValue?_equals]
    dsimp only
    rw [if_pos ⟨rfl, rfl, by omega⟩, octetsOfSextets, back a (by omega), back b (by omega)]
  | case4 a b c rest ih =>
    have := octet a
    have := octet b
    have := octet c
    rw [base64Octets?, sextetValue?_sextet (by omega), sextetValue?_sextet (by omega),
      sextetValue?_sextet (by omega), sextetValue?_sextet (by omega)]
    dsimp only
    rw [ih, octetsOfSextets, back a (by omega), back b (by omega), back c (by omega)]
    rfl

end RoundTrip

section Shape

theorem length_base64 (bytes : List UInt8) : (base64 bytes).length % 4 = 0 := by
  fun_induction base64 bytes with
  | case4 a b c rest ih =>
    simp only [List.length_cons]
    omega
  | _ => simp

/-- Characters of the alphabet, with up to two equals signs behind them. -/
theorem exists_padding (bytes : List UInt8) : ∃ body padding,
    base64 bytes = body ++ List.replicate padding '=' ∧ padding ≤ 2 ∧
      ∀ c ∈ body, c ∈ base64Alphabet := by
  fun_induction base64 bytes with
  | case1 => exact ⟨[], 0, rfl, by decide, List.forall_mem_nil _⟩
  | case2 a => exact ⟨[_, _], 2, rfl, by decide, by simp [sextet_mem]⟩
  | case3 a b => exact ⟨[_, _, _], 1, rfl, by decide, by simp [sextet_mem]⟩
  | case4 a b c rest ih =>
    obtain ⟨body, padding, split, few, members⟩ := ih
    rw [split]
    refine ⟨_ :: _ :: _ :: _ :: body, padding, rfl, few, ?_⟩
    simp only [List.forall_mem_cons]
    exact ⟨sextet_mem _, sextet_mem _, sextet_mem _, sextet_mem _, members⟩

end Shape

end RequestWriter.Text
