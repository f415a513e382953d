import RequestWriter.Proofs.Json.Grammar
import Mathlib.Data.List.Induction

/-!
# What a sequence of assignments leaves

Ordered entries are built by putting one pair after another. The result is described without the
order of the steps: the keys are the assigned keys, each at the place of its first assignment, and
each has the value of its last assignment. Keys that are texts behave as the texts do.
-/

namespace RequestWriter.Entries

section Keys

variable {κ β : Type} [DecidableEq κ]

theorem eraseDups_concat (ks : List κ) (k : κ) :
    (ks ++ [k]).eraseDups = if k ∈ ks then ks.eraseDups else ks.eraseDups ++ [k] := by
  rw [List.eraseDups_append]
  by_cases h : k ∈ ks <;> simp [List.removeAll, h, List.eraseDups_cons]

theorem nodup_eraseDups (ks : List κ) : ks.eraseDups.Nodup := by
  induction ks using List.reverseRecOn with
  | nil => simp
  | append_singleton ks k ih =>
    rw [eraseDups_concat]
    split
    · exact ih
    · next fresh =>
      refine List.nodup_append.mpr ⟨ih, by simp, ?_⟩
      rintro a ha b hb rfl
      exact fresh (List.mem_eraseDups.mp (List.mem_singleton.mp hb ▸ ha))

/-- A value that is put changes the value of its key, and adds the key when it is new. -/
theorem put_map {ks : List κ} (nodup : ks.Nodup) (f : κ → β) (k : κ) (v : β) :
    put k v (ks.map fun x => (x, f x)) =
      (if k ∈ ks then ks else ks ++ [k]).map fun x => (x, if x = k then v else f x) := by
  induction ks with
  | nil => simp [put]
  | cons x ks ih =>
    obtain ⟨fresh, nodup⟩ := List.nodup_cons.mp nodup
    by_cases here : x = k
    · subst here
      have others : ∀ y ∈ ks, (y, f y) = (y, if y = x then v else f y) := by
        intro y hy
        have : y ≠ x := by
          rintro rfl
          exact fresh hy
        rw [if_neg this]
      simpa [put] using others
    · have mem : k ∈ x :: ks ↔ k ∈ ks := by simp [Ne.symm here]
      rw [List.map_cons, put, if_neg (by simpa using here), ih nodup]
      by_cases found : k ∈ ks <;> simp [mem, found, here]

end Keys

section Assignments

variable {κ β : Type} [BEq κ]

/-- What is found under a key is the value of an entry. -/
theorem mem_of_get? {k : κ} {entries : List (κ × β)} {v : β} (h : get? k entries = some v) :
    ∃ entry ∈ entries, entry.2 = v := by
  induction entries with
  | nil => cases h
  | cons entry entries ih =>
    rw [get?] at h
    split at h
    · exact ⟨entry, List.mem_cons_self, Option.some.inj h⟩
    · obtain ⟨found, mem, value⟩ := ih h
      exact ⟨found, List.mem_cons_of_mem _ mem, value⟩

theorem ofPairs_concat (pairs : List (κ × β)) (pair : κ × β) :
    ofPairs (pairs ++ [pair]) = put pair.1 pair.2 (ofPairs pairs) := by
  simp [ofPairs, overlay]

/-- A key that counts as no other one. Among keys that may be spelled differently some still are
told apart from all others. -/
def Exact (k : κ) : Prop := ∀ x : κ, ((x == k) = true → x = k) ∧ ((k == x) = true → x = k)

theorem exact_of_lawful [LawfulBEq κ] (k : κ) : Exact k :=
  fun _ => ⟨eq_of_beq, fun h => (eq_of_beq h).symm⟩

/-- What is found under such a key is the value of an entry with this very key. -/
theorem Exact.mem_of_get? {k : κ} (exact : Exact k) {entries : List (κ × β)} {v : β}
    (h : get? k entries = some v) : (k, v) ∈ entries := by
  induction entries with
  | nil => cases h
  | cons entry entries ih =>
    obtain ⟨x, w⟩ := entry
    rw [get?] at h
    split at h
    · next here =>
      obtain rfl := (exact x).1 here
      cases h
      exact List.mem_cons_self
    · exact List.mem_cons_of_mem _ (ih h)

theorem get?_put {k k' : κ} (exact : Exact k') (v : β) (entries : List (κ × β)) :
    get? k (put k' v entries) = if k' == k then some v else get? k entries := by
  induction entries with
  | nil => rfl
  | cons entry entries ih =>
    obtain ⟨x, w⟩ := entry
    rw [put]
    by_cases here : (x == k') = true
    · rw [if_pos here, (exact x).1 here, get?, get?]
      split <;> rfl
    · rw [if_neg here, get?, get?, ih]
      by_cases other : (k' == k) = true
      · obtain rfl := (exact k).2 other
        rw [if_neg here, if_pos other, if_pos other]
      · rw [if_neg other, if_neg other]

theorem get?_eq_none {k : κ} {entries : List (κ × β)}
    (h : ∀ entry ∈ entries, (entry.1 == k) = false) : get? k entries = none := by
  induction entries with
  | nil => rfl
  | cons entry entries ih =>
    rw [get?, if_neg (by simp [h entry List.mem_cons_self])]
    exact ih fun other mem => h other (List.mem_cons_of_mem _ mem)

/-- Where each key stands once, what is found are the entries. -/
theorem get?_eq_some_iff [LawfulBEq κ] {k : κ} {v : β} {entries : List (κ × β)}
    (nodup : (entries.map Prod.fst).Nodup) : get? k entries = some v ↔ (k, v) ∈ entries := by
  induction entries with
  | nil => exact ⟨nofun, nofun⟩
  | cons entry entries ih =>
    obtain ⟨x, w⟩ := entry
    obtain ⟨fresh, nodup⟩ := List.nodup_cons.mp nodup
    rw [get?, List.mem_cons]
    by_cases here : x = k
    · subst here
      have elsewhere : (x, v) ∉ entries := fun mem => fresh (List.mem_map.mpr ⟨_, mem, rfl⟩)
      simp [elsewhere, eq_comm]
    · simp [here, Ne.symm here, ih nodup]

/-- What is found does not depend on the order of the entries. -/
theorem get?_perm [LawfulBEq κ] {entries others : List (κ × β)} (perm : others.Perm entries)
    (nodup : (entries.map Prod.fst).Nodup) (k : κ) : get? k others = get? k entries := by
  have nodup' : (others.map Prod.fst).Nodup := (perm.map Prod.fst).nodup_iff.mpr nodup
  ext v
  rw [get?_eq_some_iff nodup', get?_eq_some_iff nodup, perm.mem_iff]

/-- A change of the values under one key. -/
theorem get?_map (k : κ) (f : β → β) (entries : List (κ × β)) :
    get? k (entries.map fun entry => (entry.1, if entry.1 == k then f entry.2 else entry.2)) =
      (get? k entries).map f := by
  induction entries with
  | nil => rfl
  | cons entry entries ih =>
    rw [List.map_cons, get?, get?]
    by_cases here : (entry.1 == k) = true
    · rw [if_pos here, if_pos here, if_pos here, Option.map_some]
    · rw [if_neg here, if_neg here, ih]

/-- What assignments leave under a key is the last value that was assigned to it. -/
theorem get?_ofPairs [LawfulBEq κ] (k : κ) (pairs : List (κ × β)) :
    get? k (ofPairs pairs) = (pairs.reverse.find? fun pair => pair.1 == k).map Prod.snd := by
  induction pairs using List.reverseRecOn with
  | nil => rfl
  | append_singleton pairs pair ih =>
    rw [ofPairs_concat, get?_put (exact_of_lawful pair.1), ih, List.reverse_append,
      List.reverse_singleton, List.singleton_append, List.find?_cons]
    cases pair.1 == k <;> rfl

theorem mem_put {k : κ} {v : β} {entries : List (κ × β)} {entry : κ × β}
    (h : entry ∈ put k v entries) : entry.2 = v ∨ entry ∈ entries := by
  induction entries with
  | nil => exact .inl (by rw [List.mem_singleton.mp h])
  | cons first entries ih =>
    rw [put] at h
    split at h
    · rcases List.mem_cons.mp h with rfl | h
      · exact .inl rfl
      · exact .inr (List.mem_cons_of_mem _ h)
    · rcases List.mem_cons.mp h with rfl | h
      · exact .inr List.mem_cons_self
      · exact (ih h).imp_right (List.mem_cons_of_mem _)

theorem put_of_notMem [LawfulBEq κ] {k : κ} {entries : List (κ × β)}
    (fresh : k ∉ entries.map Prod.fst) (v : β) : put k v entries = entries ++ [(k, v)] := by
  induction entries with
  | nil => rfl
  | cons entry entries ih =>
    obtain ⟨other, later⟩ := not_or.mp (mt List.mem_cons.mpr fresh)
    rw [put, if_neg (by simpa using Ne.symm other), ih later]
    rfl

/-- Assignments to different keys are the mapping that they leave. -/
theorem ofPairs_of_nodup [LawfulBEq κ] {pairs : List (κ × β)}
    (nodup : (pairs.map Prod.fst).Nodup) : ofPairs pairs = pairs := by
  induction pairs using List.reverseRecOn with
  | nil => rfl
  | append_singleton pairs pair ih =>
    rw [List.map_append, List.nodup_append] at nodup
    have fresh : pair.1 ∉ pairs.map Prod.fst := fun mem => nodup.2.2 _ mem _ (by simp) rfl
    rw [ofPairs_concat, ih nodup.1, put_of_notMem fresh]

/-- Every value of a mapping has been assigned. -/
theorem mem_ofPairs {pairs : List (κ × β)} {entry : κ × β}
    (h : entry ∈ ofPairs pairs) : ∃ pair ∈ pairs, pair.2 = entry.2 := by
  induction pairs using List.reverseRecOn with
  | nil => cases h
  | append_singleton pairs pair ih =>
    rw [ofPairs_concat] at h
    rcases mem_put h with value | old
    · exact ⟨pair, by simp, value.symm⟩
    · obtain ⟨found, mem, value⟩ := ih old
      exact ⟨found, List.mem_append_left _ mem, value⟩

theorem filter_put {p : κ → Bool} (congr : ∀ a b, (a == b) = true → p a = p b) (k : κ) (v : β)
    (entries : List (κ × β)) :
    (put k v entries).filter (fun entry => p entry.1) =
      if p k then put k v (entries.filter fun entry => p entry.1)
      else entries.filter fun entry => p entry.1 := by
  induction entries with
  | nil => cases keep : p k <;> simp [put, keep]
  | cons entry entries ih =>
    rw [put]
    by_cases here : (entry.1 == k) = true
    · have same := congr _ _ here
      cases keep : p k <;> simp [here, same, keep, put]
    · cases keep : p entry.1 <;> cases kept : p k <;> simp [here, keep, kept, ih, put]

/-- Assignments under keys that do not matter can be left out. -/
theorem filter_ofPairs {p : κ → Bool} (congr : ∀ a b, (a == b) = true → p a = p b)
    (pairs : List (κ × β)) :
    (ofPairs pairs).filter (fun entry => p entry.1) =
      ofPairs (pairs.filter fun pair => p pair.1) := by
  induction pairs using List.reverseRecOn with
  | nil => rfl
  | append_singleton pairs pair ih =>
    rw [ofPairs_concat, filter_put congr, ih, List.filter_append]
    cases keep : p pair.1 with
    | true => simp [keep, ofPairs_concat]
    | false => simp [keep]

theorem exists_key_put (k : κ) (v : β) (entries : List (κ × β)) :
    ∃ entry ∈ put k v entries, entry.1 = k ∨ (entry.1 == k) = true := by
  induction entries with
  | nil => exact ⟨_, List.mem_cons_self, .inl rfl⟩
  | cons first entries ih =>
    rw [put]
    by_cases here : (first.1 == k) = true
    · rw [if_pos here]
      exact ⟨_, List.mem_cons_self, .inr here⟩
    · obtain ⟨entry, mem, same⟩ := ih
      rw [if_neg here]
      exact ⟨entry, List.mem_cons_of_mem _ mem, same⟩

theorem mem_keys_put {k k' : κ} {v : β} {entries : List (κ × β)} (h : k' ∈ keys entries) :
    k' ∈ keys (put k v entries) := by
  rw [keys_put]
  split
  · exact h
  · exact List.mem_append_left _ h

/-- Every key that is assigned has an entry, under itself or under a key that counts as it. -/
theorem exists_key_ofPairs {pairs : List (κ × β)} {pair : κ × β} (h : pair ∈ pairs) :
    ∃ k ∈ keys (ofPairs pairs), k = pair.1 ∨ (k == pair.1) = true := by
  induction pairs using List.reverseRecOn with
  | nil => cases h
  | append_singleton pairs last ih =>
    rw [ofPairs_concat]
    rcases List.mem_append.mp h with before | here
    · obtain ⟨k, mem, same⟩ := ih before
      exact ⟨k, mem_keys_put mem, same⟩
    · obtain rfl := List.mem_singleton.mp here
      obtain ⟨entry, mem, same⟩ := exists_key_put pair.1 pair.2 (ofPairs pairs)
      exact ⟨entry.1, List.mem_map_of_mem mem, same⟩

end Assignments

section Overlays

variable {κ β : Type} [BEq κ] [LawfulBEq κ]

omit [BEq κ] [LawfulBEq κ] in
theorem keys_cons (pair : κ × β) (pairs : List (κ × β)) :
    keys (pair :: pairs) = pair.1 :: keys pairs := rfl

/-- A value that is put replaces one that was put under the same key. -/
theorem put_put (k : κ) (v w : β) (entries : List (κ × β)) :
    put k v (put k w entries) = put k v entries := by
  induction entries with
  | nil => simp [put]
  | cons entry entries ih =>
    by_cases here : (entry.1 == k) = true
    · simp [put, here]
    · simp [put, here, ih]

theorem get?_eq_none_of_notMem {k : κ} {entries : List (κ × β)} (h : k ∉ keys entries) :
    get? k entries = none :=
  get?_eq_none fun _ mem => beq_false_of_ne fun same => h (same ▸ List.mem_map_of_mem mem)

theorem has_iff {k : κ} {entries : List (κ × β)} : has k entries = true ↔ k ∈ keys entries := by
  induction entries with
  | nil => simp [has, keys]
  | cons entry entries ih =>
    rw [has, get?, keys, List.map_cons, List.mem_cons]
    by_cases here : entry.1 = k
    · simp [here]
    · rw [if_neg (by simpa using here)]
      exact ih.trans (or_iff_right (Ne.symm here)).symm

/-- Pairs with different keys win over what they are put on. -/
theorem get?_overlay {extra : List (κ × β)} (nodup : (keys extra).Nodup) (k : κ)
    (base : List (κ × β)) : get? k (overlay base extra) = (get? k extra).or (get? k base) := by
  induction extra generalizing base with
  | nil => rfl
  | cons pair extra ih =>
    obtain ⟨fresh, nodup⟩ := List.nodup_cons.mp nodup
    rw [overlay_cons, ih nodup, get?_put (exact_of_lawful pair.1), get?]
    by_cases here : pair.1 = k
    · subst here
      rw [get?_eq_none_of_notMem fresh, if_pos (beq_self_eq_true _), if_pos (beq_self_eq_true _)]
      rfl
    · rw [if_neg (by simpa using here), if_neg (by simpa using here)]

/-- Pairs with different keys take the places of their keys, or follow in order. -/
theorem keys_overlay {extra : List (κ × β)} (nodup : (keys extra).Nodup) (base : List (κ × β)) :
    keys (overlay base extra) = keys base ++ (keys extra).filter (· ∉ keys base) := by
  induction extra generalizing base with
  | nil => exact (List.append_nil _).symm
  | cons pair extra ih =>
    obtain ⟨fresh, nodup⟩ := List.nodup_cons.mp nodup
    rw [overlay_cons, ih nodup, keys_put, keys_cons]
    by_cases there : pair.1 ∈ keys base
    · rw [if_pos (has_iff.mpr there), List.filter_cons_of_neg (by simpa using there)]
    · rw [if_neg (mt has_iff.mp there), List.filter_cons_of_pos (by simpa using there),
        List.append_assoc, List.singleton_append]
      have others : (keys extra).filter (· ∉ keys base ++ [pair.1]) =
          (keys extra).filter (· ∉ keys base) := by
        refine List.filter_congr fun k mem => ?_
        have apart : k ≠ pair.1 := by
          rintro rfl
          exact fresh mem
        simp [apart]
      rw [others]

end Overlays

section Images

variable {κ κ' β β' : Type} [BEq κ] [BEq κ'] {f : κ → κ'}

/-- Keys that are compared as their images are assigned as these are. -/
theorem put_map_key (same : ∀ a b, (f a == f b) = (a == b)) (h : β → β') (k : κ) (v : β)
    (entries : List (κ × β)) :
    put (f k) (h v) (entries.map (Prod.map f h)) = (put k v entries).map (Prod.map f h) := by
  induction entries with
  | nil => rfl
  | cons entry entries ih =>
    rw [List.map_cons, put, put, Prod.map_fst, same, ih]
    cases entry.1 == k <;> rfl

theorem overlay_map_key (same : ∀ a b, (f a == f b) = (a == b)) (h : β → β')
    (base extra : List (κ × β)) :
    overlay (base.map (Prod.map f h)) (extra.map (Prod.map f h)) =
      (overlay base extra).map (Prod.map f h) := by
  induction extra generalizing base with
  | nil => rfl
  | cons pair extra ih =>
    rw [overlay_cons, ← ih, ← put_map_key same]
    rfl

theorem ofPairs_map_key (same : ∀ a b, (f a == f b) = (a == b)) (h : β → β')
    (pairs : List (κ × β)) :
    ofPairs (pairs.map (Prod.map f h)) = (ofPairs pairs).map (Prod.map f h) :=
  overlay_map_key same h [] pairs

end Images

section LastValues

variable {κ β : Type} [DecidableEq κ]

/-- The value that the last pair with a key assigns to it, and `default` if no pair does. -/
def lastAssigned (default : β) (k : κ) (pairs : List (κ × β)) : β :=
  ((pairs.filter fun pair => pair.1 = k).getLast?.map Prod.snd).getD default

theorem lastAssigned_concat (default : β) (k : κ) (pairs : List (κ × β)) (pair : κ × β) :
    lastAssigned default k (pairs ++ [pair]) =
      if k = pair.1 then pair.2 else lastAssigned default k pairs := by
  by_cases h : k = pair.1
  · simp [lastAssigned, h]
  · simp [lastAssigned, h, Ne.symm h]

/-- First places and last values. -/
theorem ofPairs_eq_map (default : β) (pairs : List (κ × β)) :
    ofPairs pairs =
      (pairs.map Prod.fst).eraseDups.map fun k => (k, lastAssigned default k pairs) := by
  induction pairs using List.reverseRecOn with
  | nil => rfl
  | append_singleton pairs pair ih =>
    rw [ofPairs_concat, ih, put_map (nodup_eraseDups _), List.map_append, List.map_singleton,
      eraseDups_concat]
    simp only [lastAssigned_concat, List.mem_eraseDups]

/-- Assignments leave each key once. -/
theorem nodup_ofPairs (pairs : List (κ × β)) : ((ofPairs pairs).map Prod.fst).Nodup := by
  cases pairs with
  | nil => exact List.nodup_nil
  | cons pair pairs =>
    have keys : ((ofPairs (pair :: pairs)).map Prod.fst) =
        ((pair :: pairs).map Prod.fst).eraseDups := by
      rw [ofPairs_eq_map pair.2, List.map_map]
      exact List.map_id _
    rw [keys]
    exact nodup_eraseDups _

end LastValues

open Json.Grammar

theorem ofPairs_eq (pairs : List (String × Value)) :
    ofPairs pairs = (pairs.map Prod.fst).eraseDups.map fun key => (key, lastValue key pairs) :=
  ofPairs_eq_map Value.null pairs

/-- The entry of a text key. -/
def ofText (pair : String × Value) : Scalar × Value := (.text pair.1, pair.2)

theorem ofPairs_ofText (pairs : List (String × Value)) :
    ofPairs (pairs.map ofText) = (ofPairs pairs).map ofText :=
  ofPairs_map_key Scalar.text_beq_text id pairs

/-- A mapping whose keys are texts that stand there once is what its own entries assign. -/
theorem ofPairs_of_texts {entries : List (Scalar × Value)}
    (keys : ∀ entry ∈ entries, ∃ s, entry.1 = .text s) (nodup : (entries.map Prod.fst).Nodup) :
    ofPairs entries = entries := by
  obtain ⟨pairs, rfl⟩ : ∃ pairs : List (String × Value), entries = pairs.map ofText := by
    refine ⟨entries.map fun entry => ((Value.scalar entry.1).text?.getD "", entry.2), ?_⟩
    conv_lhs => rw [← List.map_id entries]
    rw [List.map_map]
    refine List.map_congr_left fun entry mem => ?_
    obtain ⟨s, isText⟩ := keys entry mem
    obtain ⟨k, v⟩ := entry
    cases isText
    rfl
  have once : (pairs.map Prod.fst).Nodup := by
    rw [List.map_map] at nodup
    exact List.pairwise_map.mpr
      ((List.pairwise_map.mp nodup).imp fun ne eq => ne (congrArg Scalar.text eq))
  rw [ofPairs_ofText, ofPairs_of_nodup once]

/-- The entries of an object that was read are what its assignments leave. -/
theorem mapping_ofPairs (pairs : List (String × Value)) :
    Value.mapping (ofPairs (pairs.map ofText)) = assigned pairs := by
  rw [ofPairs_ofText, ofPairs_eq]
  rfl

end RequestWriter.Entries

namespace RequestWriter

/-- A text counts as no other key. -/
theorem Scalar.exact_text (s : String) : Entries.Exact (Scalar.text s) := by
  intro x
  cases x with
  | text t =>
    rw [Scalar.text_beq_text, Scalar.text_beq_text]
    exact ⟨fun h => congrArg _ (eq_of_beq h), fun h => congrArg _ (eq_of_beq h).symm⟩
  | float d =>
    change (Scalar.same (.float d) (.text s) = true → _) ∧ _
    cases whole : d.toInt? <;> simp [Scalar.same, Scalar.toInt?, whole, BEq.beq]
  | _ => exact ⟨fun h => absurd h Bool.false_ne_true, fun h => absurd h Bool.false_ne_true⟩

/-- Bytes count as no other key. -/
theorem Scalar.exact_bytes (b : List UInt8) : Entries.Exact (Scalar.bytes b) := by
  intro x
  cases x with
  | bytes c =>
    change ((c == b) = true → _) ∧ ((b == c) = true → _)
    exact ⟨fun h => congrArg _ (eq_of_beq h), fun h => congrArg _ (eq_of_beq h).symm⟩
  | float d =>
    change (Scalar.same (.float d) (.bytes b) = true → _) ∧ _
    cases whole : d.toInt? <;> simp [Scalar.same, Scalar.toInt?, whole, BEq.beq]
  | _ => exact ⟨fun h => absurd h Bool.false_ne_true, fun h => absurd h Bool.false_ne_true⟩

end RequestWriter
