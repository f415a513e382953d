import RequestWriter.Text.Utf8

/-!
# Bytes of characters

Decoding undoes encoding, one character in front of any rest after another. Every character that is
decoded begins with an octet that continues nothing, so there are no more characters than such
octets.
-/

namespace RequestWriter.Text

section Steps

variable {a b c d : UInt8} {bytes : List UInt8}

theorem utf8Chars?_one (h : a < 0x80) :
    utf8Chars? (a :: bytes) = (utf8Chars? bytes).map (Char.ofNat a.toNat :: ·) := by
  rw [utf8Chars?.eq_def]
  simp only [h, if_true]

theorem utf8Chars?_two (first : 0xC2 ≤ a ∧ a < 0xE0) (tail : isTail b = true) :
    utf8Chars? (a :: b :: bytes) =
      (utf8Chars? bytes).map (ofOctets (a.toNat - 0xC0) [b] :: ·) := by
  have large : ¬a < 0x80 := by grind
  rw [utf8Chars?.eq_def]
  simp only [large, first, tail, if_true, if_false, and_self]

theorem utf8Chars?_three (h : isTriple a b c = true) :
    utf8Chars? (a :: b :: c :: bytes) =
      (utf8Chars? bytes).map (ofOctets (a.toNat - 0xE0) [b, c] :: ·) := by
  have large : ¬a < 0x80 ∧ ¬(0xC2 ≤ a ∧ a < 0xE0) := by
    simp only [isTriple, Bool.and_eq_true, decide_eq_true_eq] at h
    grind
  rw [utf8Chars?.eq_def]
  simp only [large, h, if_true, if_false]

theorem utf8Chars?_four (h : isQuadruple a b c d = true) :
    utf8Chars? (a :: b :: c :: d :: bytes) =
      (utf8Chars? bytes).map (ofOctets (a.toNat - 0xF0) [b, c, d] :: ·) := by
  have large : ¬a < 0x80 ∧ ¬(0xC2 ≤ a ∧ a < 0xE0) ∧ isTriple a b c = false := by
    simp only [isQuadruple, isTriple, Bool.and_eq_true, decide_eq_true_eq] at h ⊢
    grind
  rw [utf8Chars?.eq_def]
  simp only [large, h, if_true, if_false, Bool.false_eq_true]

end Steps

section Encoding

variable {c : Char}

theorem toNat_tail (n : Nat) : (UInt8.ofNat (n % 64 + 128)).toNat = n % 64 + 128 :=
  UInt8.toNat_ofNat_of_lt' (show _ < 256 by omega)

theorem isTail_tail (n : Nat) : isTail (UInt8.ofNat (n % 64 + 128)) = true := by
  simp only [isTail, Bool.and_eq_true, decide_eq_true_eq, UInt8.le_iff_toNat_le,
    UInt8.lt_iff_toNat_lt, toNat_tail]
  exact ⟨Nat.le_add_left _ _, show _ < 192 by omega⟩

theorem ofOctets_eq {first : Nat} {tails : List UInt8}
    (h : tails.foldl (fun code b => code * 64 + (b.toNat - 0x80)) first = c.toNat) :
    ofOctets first tails = c := by
  rw [ofOctets, h, Char.ofNat_toNat]

/-- A character that is encoded in front of any rest is read first. The cases are the lengths of
its form; the restrictions on the second octet hold because the form is the shortest one and the
code of a character is no surrogate. -/
theorem utf8Chars?_encode (c : Char) (rest : List UInt8) :
    utf8Chars? (String.utf8EncodeChar c ++ rest) = (utf8Chars? rest).map (c :: ·) := by
  have valid : c.toNat < 0xD800 ∨ 0xDFFF < c.toNat ∧ c.toNat < 0x110000 := c.valid
  rw [String.utf8EncodeChar]
  simp only [show c.val.toNat = c.toNat from rfl]
  generalize code : c.toNat = n at valid ⊢
  split
  · next one =>
    have a : (UInt8.ofNat n).toNat = n :=
      UInt8.toNat_ofNat_of_lt' (show _ < 256 by omega)
    rw [List.singleton_append, utf8Chars?_one, a, ← code, Char.ofNat_toNat]
    rw [UInt8.lt_iff_toNat_lt, a]
    exact Nat.lt_succ_of_le one
  split
  · next two =>
    have a : (UInt8.ofNat (n / 64 % 32 + 192)).toNat = n / 64 % 32 + 192 :=
      UInt8.toNat_ofNat_of_lt' (show _ < 256 by omega)
    have same : ofOctets (n / 64 % 32 + 192 - 192) [UInt8.ofNat (n % 64 + 128)] = c := by
      refine ofOctets_eq ?_
      rw [code, List.foldl_cons, List.foldl_nil, toNat_tail]
      omega
    rw [List.cons_append, List.singleton_append, utf8Chars?_two _ (isTail_tail n), a]
    · rw [same]
    · simp only [UInt8.le_iff_toNat_le, UInt8.lt_iff_toNat_lt, a]
      exact ⟨show 194 ≤ _ by omega, show _ < 224 by omega⟩
  split
  · next three =>
    have a : (UInt8.ofNat (n / 4096 % 16 + 224)).toNat = n / 4096 % 16 + 224 :=
      UInt8.toNat_ofNat_of_lt' (show _ < 256 by omega)
    have same : ofOctets (n / 4096 % 16 + 224 - 224)
        [UInt8.ofNat (n / 64 % 64 + 128), UInt8.ofNat (n % 64 + 128)] = c := by
      refine ofOctets_eq ?_
      rw [code, List.foldl_cons, List.foldl_cons, List.foldl_nil, toNat_tail, toNat_tail]
      omega
    rw [List.cons_append, List.cons_append, List.singleton_append, utf8Chars?_three, a]
    · rw [same]
    · simp only [isTriple, isTail_tail, Bool.and_eq_true, Bool.or_eq_true, decide_eq_true_eq,
        bne_iff_ne, ne_eq, UInt8.le_iff_toNat_le, UInt8.lt_iff_toNat_lt, ← UInt8.toNat_inj, a,
        toNat_tail, UInt8.reduceToNat, and_true]
      omega
  · next four =>
    have a : (UInt8.ofNat (n / 262144 % 8 + 240)).toNat = n / 262144 % 8 + 240 :=
      UInt8.toNat_ofNat_of_lt' (show _ < 256 by omega)
    have same : ofOctets (n / 262144 % 8 + 240 - 240) [UInt8.ofNat (n / 4096 % 64 + 128),
        UInt8.ofNat (n / 64 % 64 + 128), UInt8.ofNat (n % 64 + 128)] = c := by
      refine ofOctets_eq ?_
      rw [code, List.foldl_cons, List.foldl_cons, List.foldl_cons, List.foldl_nil, toNat_tail,
        toNat_tail, toNat_tail]
      omega
    rw [List.cons_append, List.cons_append, List.cons_append, List.singleton_append,
      utf8Chars?_four, a]
    · rw [same]
    · simp only [isQuadruple, isTail_tail, Bool.and_eq_true, Bool.or_eq_true, decide_eq_true_eq,
        bne_iff_ne, ne_eq, UInt8.le_iff_toNat_le, UInt8.lt_iff_toNat_lt, ← UInt8.toNat_inj, a,
        toNat_tail, UInt8.reduceToNat, and_true]
      omega

/-- The bytes of a text are read back as the text. -/
theorem utf8Chars?_utf8Bytes (cs : List Char) : utf8Chars? (utf8Bytes cs) = some cs := by
  induction cs with
  | nil => rfl
  | cons c cs ih =>
    rw [utf8Bytes, List.flatMap_cons, utf8Chars?_encode, ← utf8Bytes, ih]
    rfl

theorem ofUtf8?_utf8Bytes (s : String) : ofUtf8? (utf8Bytes s.toList) = some s := by
  rw [ofUtf8?, utf8Chars?_utf8Bytes, Option.map_some, String.ofList_toList]

end Encoding

section Counting

/-- How many octets continue nothing. -/
def heads (bytes : List UInt8) : Nat := bytes.countP fun b => !isTail b

theorem heads_append (a b : List UInt8) : heads (a ++ b) = heads a + heads b :=
  List.countP_append

theorem heads_cons (a : UInt8) (bytes : List UInt8) :
    heads (a :: bytes) = heads bytes + if isTail a then 0 else 1 := by
  cases tail : isTail a <;> simp [heads, tail]

theorem heads_cons_le (a : UInt8) (bytes : List UInt8) : heads (a :: bytes) ≤ heads bytes + 1 := by
  rw [heads_cons]
  split <;> omega

theorem heads_le_cons (a : UInt8) (bytes : List UInt8) : heads bytes ≤ heads (a :: bytes) := by
  rw [heads_cons]
  exact Nat.le_add_right _ _

/-- Behind its first octet the form of a character has tails. -/
theorem heads_encode_le (c : Char) : heads (String.utf8EncodeChar c) ≤ 1 := by
  have front (a : UInt8) {tails : List UInt8} (none : heads tails = 0) :
      heads (a :: tails) ≤ 1 := by
    have := heads_cons_le a tails
    omega
  have tail (n : Nat) (bytes : List UInt8) :
      heads (UInt8.ofNat (n % 64 + 128) :: bytes) = heads bytes := by
    rw [heads_cons, isTail_tail]
    rfl
  rw [String.utf8EncodeChar]
  split
  · exact front _ rfl
  split
  · exact front _ (tail _ _)
  split
  · exact front _ ((tail _ _).trans (tail _ _))
  · exact front _ ((tail _ _).trans ((tail _ _).trans (tail _ _)))

/-- Every character that is decoded takes an octet of its own that continues nothing. -/
theorem length_le_heads {bytes : List UInt8} {cs : List Char} (h : utf8Chars? bytes = some cs) :
    cs.length ≤ heads bytes := by
  have step {a : UInt8} {c : Char} {behind rest : List UInt8} {cs : List Char}
      (first : isTail a = false) (rests : heads rest ≤ heads behind)
      (ih : ∀ {ds}, utf8Chars? rest = some ds → ds.length ≤ heads rest)
      (h : (utf8Chars? rest).map (c :: ·) = some cs) : cs.length ≤ heads (a :: behind) := by
    obtain ⟨ds, read, rfl⟩ := Option.map_eq_some_iff.mp h
    have := ih read
    rw [heads_cons, first, List.length_cons, if_neg Bool.false_ne_true]
    omega
  fun_induction utf8Chars? bytes generalizing cs with
  | case1 =>
    cases h
    exact Nat.zero_le _
  | case2 a rest small ih =>
    refine step ?_ (Nat.le_refl _) ih h
    rw [isTail]
    grind
  | case4 a _ b rest first _ ih =>
    refine step ?_ (heads_le_cons _ _) ih h
    rw [isTail]
    grind
  | case7 a _ b _ c rest triple ih =>
    refine step ?_ (Nat.le_trans (heads_le_cons c rest) (heads_le_cons b _)) ih h
    simp only [isTriple, Bool.and_eq_true, decide_eq_true_eq] at triple
    rw [isTail]
    grind
  | case9 a _ b _ c _ d rest quadruple ih =>
    have rests := Nat.le_trans (heads_le_cons d rest) (heads_le_cons c _)
    refine step ?_ (Nat.le_trans rests (heads_le_cons b _)) ih h
    simp only [isQuadruple, Bool.and_eq_true, decide_eq_true_eq] at quadruple
    rw [isTail]
    grind
  | _ => cases h

end Counting

end RequestWriter.Text
