import RequestWriter.Proofs.Json.Number
import RequestWriter.Proofs.Value.Parts
import RequestWriter.Json.Printer

/-!
# Spelling whole numbers

The decimal digits of a whole number are a number of the grammar with that value, so long as there
are not too many of them. The printers refuse exactly the numbers that the reader would refuse.
-/

namespace RequestWriter.Json

open Grammar

theorem isDigit_toDigits {n : Nat} {c : Char} (h : c ∈ Nat.toDigits 10 n) : c.isDigit = true :=
  Nat.isDigit_of_mem_toDigits (by decide) (by decide) h

/-- A positive number is not spelled with a zero in front. -/
theorem toDigits_front {n : Nat} (pos : 0 < n) :
    ∃ d ds, Nat.toDigits 10 n = d :: ds ∧ d ≠ '0' := by
  induction n using Nat.strongRecOn with
  | ind n ih =>
    by_cases small : n < 10
    · refine ⟨n.digitChar, [], Nat.toDigits_of_lt_base small, ?_⟩
      rcases n with _ | _ | _ | _ | _ | _ | _ | _ | _ | _ | n <;>
        first
          | omega
          | decide
    · obtain ⟨d, ds, digits, nonzero⟩ := ih (n / 10) (by omega) (by omega)
      rw [Nat.toDigits_of_base_le (by decide) (by omega), digits]
      exact ⟨d, ds ++ [(n % 10).digitChar], rfl, nonzero⟩

theorem whole_toDigits (n : Nat) : Whole (Nat.toDigits 10 n) := by
  by_cases zero : n = 0
  · rw [zero, Nat.toDigits_zero]
    exact .zero
  · obtain ⟨d, ds, digits, nonzero⟩ := toDigits_front (Nat.pos_of_ne_zero zero)
    have isDigit : ∀ c ∈ d :: ds, c.isDigit = true := by
      intro c hc
      rw [← digits] at hc
      exact isDigit_toDigits hc
    rw [digits]
    exact .digits (isDigit d List.mem_cons_self) nonzero
      fun c hc => isDigit c (List.mem_cons_of_mem d hc)

theorem toList_toString_int (i : Int) :
    (toString i).toList = (if i < 0 then ['-'] else []) ++ Nat.toDigits 10 i.natAbs := by
  cases i with
  | ofNat n =>
    have : ¬(Int.ofNat n < 0) := by simp
    rw [if_neg this]
    exact Nat.toList_repr
  | negSucc n =>
    rw [if_pos (Int.negSucc_lt_zero n), Int.toString_eq_repr, Int.repr, String.toList_append,
      Nat.toList_repr]
    rfl

/-- The text of a whole number is a number of the grammar with its value. -/
theorem number_toString {i : Int} (short : (Nat.toDigits 10 i.natAbs).length ≤ maxIntegerDigits) :
    Number (toString i).toList (.int i) := by
  rw [toList_toString_int]
  have digits : spelled (Nat.toDigits 10 i.natAbs) = i.natAbs := Nat.ofDigitChars_ten_toDigits
  have value : i = signed (decide (i < 0)) (spelled (Nat.toDigits 10 i.natAbs)) := by
    rw [digits, signed]
    by_cases negative : i < 0
    · rw [decide_eq_true negative, if_pos rfl]
      omega
    · rw [decide_eq_false negative, if_neg Bool.false_ne_true]
      omega
  have minus : Minus (if i < 0 then ['-'] else []) (decide (i < 0)) := by
    by_cases negative : i < 0
    · simp only [negative, if_true, decide_true]
      exact .present
    · simp only [negative, if_false, decide_false]
      exact .absent
  have number := Number.integer minus (whole_toDigits i.natAbs) short
  rwa [← value] at number

theorem lt_tenTo_iff {n k : Nat} (pos : 0 < k) :
    n < tenTo k ↔ (Nat.toDigits 10 n).length ≤ k :=
  (Nat.length_toDigits_le_iff (by decide) pos).symm

/-- The writers refuse the numbers with more than 4300 digits. -/
theorem isTooLong_eq_false_iff {i : Int} :
    isTooLong i = false ↔ (Nat.toDigits 10 i.natAbs).length ≤ maxIntegerDigits := by
  rw [isTooLong, decide_eq_false_iff_not, Nat.not_le]
  exact lt_tenTo_iff (by decide)

/-- Every other scalar is written. -/
theorem scalarFault?_of_isShort {s : Scalar} (h : s.IsShort) : scalarFault? s = none := by
  cases s with
  | int i =>
    have short : isTooLong i = false := isTooLong_eq_false_iff.mpr h
    simp [scalarFault?, short]
  | _ => rfl

end RequestWriter.Json
