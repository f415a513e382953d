import RequestWriter.Text.Percent
import RequestWriter.Text.Hexadecimal
import RequestWriter.Proofs.Text.Utf8

/-!
# Percent encoding read back

Encoded text consists of unreserved characters and percent groups, so none of the characters that
delimit the parts of a URL stands in it, and decoding gives back what was encoded. Decoding accepts
every text: a percent sign that no two hexadecimal digits follow stands for itself. It never makes
a text longer.
-/

namespace RequestWriter.Text

variable {s t : String} {cs rest : List Char}

/-- The octets that a text stands for: those of its percent groups, and the UTF-8 form of every
other character. -/
def percentOctets : List Char → List UInt8
  | [] => []
  | '%' :: a :: b :: rest =>
    match hexValue? a, hexValue? b with
    | some high, some low => UInt8.ofNat (16 * high + low) :: percentOctets rest
    | _, _ => String.utf8EncodeChar '%' ++ percentOctets (a :: b :: rest)
  | c :: rest => String.utf8EncodeChar c ++ percentOctets rest

/-- The text in its decoded form, if its octets are the UTF-8 form of one. -/
def percentDecode? (s : String) : Option String := ofUtf8? (percentOctets s.toList)

/-- The hexadecimal digits in capitals. -/
def capitalDigits : List Char := "0123456789ABCDEF".toList

/-- The text consists of unreserved characters and of percent groups in capitals. -/
inductive PercentEncoded : List Char → Prop
  | nil : PercentEncoded []
  | mark {c : Char} {rest : List Char} (h : isUnreserved c = true) (behind : PercentEncoded rest) :
      PercentEncoded (c :: rest)
  | group {a b : Char} {rest : List Char} (high : a ∈ capitalDigits) (low : b ∈ capitalDigits)
      (behind : PercentEncoded rest) : PercentEncoded ('%' :: a :: b :: rest)

section Encoded

theorem PercentEncoded.append (h : PercentEncoded cs) (behind : PercentEncoded rest) :
    PercentEncoded (cs ++ rest) := by
  induction h with
  | nil => exact behind
  | mark h _ ih => exact .mark h ih
  | group high low _ ih => exact .group high low ih

theorem PercentEncoded.unreserved_or_percent (h : PercentEncoded cs) :
    ∀ c ∈ cs, isUnreserved c = true ∨ c = '%' := by
  have digits : ∀ c ∈ capitalDigits, isUnreserved c = true :=
    List.all_eq_true.mp (by decide)
  induction h with
  | nil => exact List.forall_mem_nil _
  | mark h _ ih => exact List.forall_mem_cons.mpr ⟨.inl h, ih⟩
  | group high low _ ih =>
    simp only [List.forall_mem_cons]
    exact ⟨.inr trivial, .inl (digits _ high), .inl (digits _ low), ih⟩

/-- A character that is neither unreserved nor the percent sign does not stand in encoded text. -/
theorem PercentEncoded.notMem (h : PercentEncoded cs) {c : Char} (reserved : isUnreserved c = false)
    (other : c ≠ '%') : c ∉ cs := by
  intro mem
  rcases h.unreserved_or_percent c mem with unreserved | percent
  · rw [reserved] at unreserved
    cases unreserved
  · exact other percent

/-- A digit as it is written. -/
def capitalDigit (n : Nat) : Char := (Nat.digitChar n).toUpper

theorem percentOctet_eq (b : UInt8) :
    percentOctet b = ['%', capitalDigit (b.toNat / 16), capitalDigit (b.toNat % 16)] := by
  have high : b.toNat / 16 % 16 = b.toNat / 16 := by
    have := b.toNat_lt
    omega
  simp [percentOctet, hexDigits, capitalDigit, high]

theorem capitalDigit_mem : ∀ n < 16, capitalDigit n ∈ capitalDigits := by decide

theorem hexValue?_capitalDigit : ∀ n < 16, hexValue? (capitalDigit n) = some n := by decide

theorem percentEncoded_octet (b : UInt8) : PercentEncoded (percentOctet b) := by
  have := b.toNat_lt
  rw [percentOctet_eq]
  exact .group (capitalDigit_mem _ (by omega)) (capitalDigit_mem _ (by omega)) .nil

theorem percentEncoded_char (c : Char) : PercentEncoded (percentChar c) := by
  rw [percentChar]
  split
  · next unreserved => exact .mark unreserved .nil
  · induction String.utf8EncodeChar c with
    | nil => exact .nil
    | cons b bytes ih => exact (percentEncoded_octet b).append ih

theorem percentEncoded_encode (s : String) : PercentEncoded (percentEncode s).toList := by
  rw [percentEncode, String.toList_ofList]
  induction s.toList with
  | nil => exact .nil
  | cons c cs ih => exact (percentEncoded_char c).append ih

end Encoded

section Decoding

theorem percentOctets_cons {c : Char} (other : c ≠ '%') (rest : List Char) :
    percentOctets (c :: rest) = String.utf8EncodeChar c ++ percentOctets rest := by
  rw [percentOctets]
  rintro a b rest' rfl
  exact absurd rfl other

/-- An octet that is written in front of any rest is read first. -/
theorem percentOctets_octet (b : UInt8) (rest : List Char) :
    percentOctets (percentOctet b ++ rest) = b :: percentOctets rest := by
  have small := b.toNat_lt
  have high := hexValue?_capitalDigit (b.toNat / 16) (by omega)
  have low := hexValue?_capitalDigit (b.toNat % 16) (by omega)
  have value : 16 * (b.toNat / 16) + b.toNat % 16 = b.toNat := by omega
  rw [percentOctet_eq, List.cons_append, List.cons_append, List.singleton_append, percentOctets,
    high, low]
  dsimp only
  rw [value, UInt8.ofNat_toNat]

theorem percentOctets_char (c : Char) (rest : List Char) :
    percentOctets (percentChar c ++ rest) = String.utf8EncodeChar c ++ percentOctets rest := by
  rw [percentChar]
  split
  · next unreserved =>
    refine percentOctets_cons ?_ rest
    rintro rfl
    exact absurd unreserved (by decide)
  · induction String.utf8EncodeChar c with
    | nil => rfl
    | cons b bytes ih =>
      rw [List.flatMap_cons, List.append_assoc, percentOctets_octet, ih, List.cons_append]

theorem percentOctets_encoded (cs : List Char) :
    percentOctets (cs.flatMap percentChar) = utf8Bytes cs := by
  induction cs with
  | nil => rfl
  | cons c cs ih =>
    rw [List.flatMap_cons, percentOctets_char, ih]
    rfl

/-- Decoding gives back what was encoded. -/
theorem percentDecode?_encode (s : String) : percentDecode? (percentEncode s) = some s := by
  rw [percentDecode?, percentEncode, String.toList_ofList, percentOctets_encoded, ofUtf8?_utf8Bytes]

/-- Each character of a text gives at most one octet that begins a character. -/
theorem heads_percentOctets_le (cs : List Char) : heads (percentOctets cs) ≤ cs.length := by
  fun_induction percentOctets cs with
  | case1 => exact Nat.le_refl 0
  | case2 a b rest high low _ _ ih =>
    have := heads_cons_le (UInt8.ofNat (16 * high + low)) (percentOctets rest)
    simp only [List.length_cons]
    omega
  | case3 a b rest _ ih =>
    have := heads_encode_le '%'
    rw [heads_append]
    simp only [List.length_cons] at ih ⊢
    omega
  | case4 c rest _ ih =>
    have := heads_encode_le c
    rw [heads_append, List.length_cons]
    omega

/-- A text has at least as many characters as its decoded form. -/
theorem length_le_of_percentDecode? (h : percentDecode? s = some t) :
    t.toList.length ≤ s.toList.length := by
  obtain ⟨cs, read, rfl⟩ := Option.map_eq_some_iff.mp h
  rw [String.toList_ofList]
  exact Nat.le_trans (length_le_heads read) (heads_percentOctets_le _)

end Decoding

end RequestWriter.Text
