import RequestWriter.Credential
import RequestWriter.Proofs.Text.Base64
import RequestWriter.Proofs.Text.Utf8

/-!
# What a basic credential becomes

The value of a basic credential goes through two codings, from characters to octets and from octets
to base 64. Both can be read back, so the header holds the whole value whatever its characters are,
and the characters of the header itself are harmless.
-/

namespace RequestWriter.Credential

/-- The value in the base 64 form of its bytes. -/
def recovered? (form : List Char) : Option String :=
  (Text.base64Octets? form).bind Text.ofUtf8?

theorem recovered?_encoded (v : String) : recovered? (encoded v).toList = some v := by
  rw [recovered?, encoded, String.toList_ofList, Text.base64Octets?_base64]
  exact Text.ofUtf8?_utf8Bytes v

theorem encoded_injective {v w : String} (h : encoded v = encoded w) : v = w := by
  have same := recovered?_encoded v
  rw [h, recovered?_encoded] at same
  exact (Option.some.inj same).symm

/-- A character of a header that holds a basic credential: no line break and no quote is one. -/
def IsHarmless (c : Char) : Prop := c.isAlphanum = true ∨ c ∈ [' ', '+', '/', '=']

instance (c : Char) : Decidable (IsHarmless c) := inferInstanceAs (Decidable (_ ∨ _))

theorem IsHarmless.notMem {c : Char} (h : IsHarmless c) : c ∉ ['\n', '\r', '"', '\''] := by
  intro mem
  simp only [List.mem_cons, List.not_mem_nil, or_false] at mem
  rcases mem with rfl | rfl | rfl | rfl <;> exact absurd h (by decide)

theorem isHarmless_scheme {c : Char} (h : c ∈ "Basic ".toList) : IsHarmless c := by
  have all : ("Basic ".toList.all fun c => c.isAlphanum || c == ' ') = true := by decide
  rcases Bool.or_eq_true .. ▸ List.all_eq_true.mp all c h with letter | blank
  · exact .inl letter
  · exact .inr (by simp [eq_of_beq blank])

/-- The header of a basic credential is named `Authorization`, and behind its scheme it holds the
bytes of the value in base 64, from which the value is read back. So credentials with different
values have different headers, and no value puts a line break or a quote into one. -/
theorem header_basic (v : String) : ∃ body padding,
    (⟨.basic, v⟩ : Credential).header =
        ("Authorization", "Basic " ++ String.ofList (body ++ List.replicate padding '=')) ∧
      (∀ c ∈ body, c.isAlphanum = true ∨ c = '+' ∨ c = '/') ∧ padding ≤ 2 ∧
      (body ++ List.replicate padding '=').length % 4 = 0 ∧
      recovered? (body ++ List.replicate padding '=') = some v ∧
      (∀ w, (⟨.basic, w⟩ : Credential).header = (⟨.basic, v⟩ : Credential).header → w = v) ∧
      ∀ c ∈ (⟨.basic, v⟩ : Credential).header.2.toList,
        IsHarmless c ∧ c ∉ ['\n', '\r', '"', '\''] := by
  obtain ⟨body, padding, form, few, members⟩ := Text.exists_padding (Text.utf8Bytes v.toList)
  have written : encoded v = String.ofList (body ++ List.replicate padding '=') := by
    rw [encoded, form]
  have letters : ∀ c ∈ body, c.isAlphanum = true ∨ c = '+' ∨ c = '/' :=
    fun c mem => Text.mem_base64Alphabet (members c mem)
  refine ⟨body, padding, ?_, letters, few, ?_, ?_, ?_, ?_⟩
  · rw [← written]
    rfl
  · rw [← form]
    exact Text.length_base64 _
  · have back := recovered?_encoded v
    rwa [written, String.toList_ofList] at back
  · intro w same
    exact encoded_injective ((String.append_right_inj _).mp (congrArg Prod.snd same))
  · change ∀ c ∈ ("Basic " ++ encoded v).toList, _
    intro c mem
    have harmless : IsHarmless c := by
      simp only [written, String.toList_append, String.toList_ofList, List.mem_append] at mem
      rcases mem with scheme | mem | filling
      · exact isHarmless_scheme scheme
      · rcases letters c mem with alphanum | rfl | rfl
        · exact .inl alphanum
        · exact .inr (by decide)
        · exact .inr (by decide)
      · rw [List.eq_of_mem_replicate filling]
        exact .inr (by decide)
    exact ⟨harmless, harmless.notMem⟩

end RequestWriter.Credential
