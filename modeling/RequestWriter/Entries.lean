/-!
# Ordered entries

A mapping whose order shows in every output: headers, query values, and the objects of a document.
It is a list of pairs. Putting a value under a key that is already there keeps the place of the
first entry and takes the new value; a new key goes to the end. Keys are compared by `==`, so a
type of keys may identify keys that are spelled differently.
-/

namespace RequestWriter.Entries

variable {κ β : Type} [BEq κ]

/-- The value under the first entry whose key equals `k`. -/
def get? (k : κ) : List (κ × β) → Option β
  | [] => none
  | (k', v) :: rest => if k' == k then some v else get? k rest

def has (k : κ) (entries : List (κ × β)) : Bool := (get? k entries).isSome

/-- Replaces the value in place when the key is there, and appends the pair when it is not. -/
def put (k : κ) (v : β) : List (κ × β) → List (κ × β)
  | [] => [(k, v)]
  | (k', v') :: rest => if k' == k then (k', v) :: rest else (k', v') :: put k v rest

/-- Puts every pair of `extra`, from the left, on top of `base`. -/
def overlay (base extra : List (κ × β)) : List (κ × β) :=
  extra.foldl (fun entries pair => put pair.1 pair.2 entries) base

/-- The mapping that a sequence of assignments leaves. -/
def ofPairs (pairs : List (κ × β)) : List (κ × β) := overlay [] pairs

def keys (entries : List (κ × β)) : List κ := entries.map Prod.fst

@[simp] theorem get?_nil (k : κ) : get? k ([] : List (κ × β)) = none := rfl

@[simp] theorem overlay_nil (base : List (κ × β)) : overlay base [] = base := rfl

@[simp] theorem overlay_cons (base : List (κ × β)) (pair : κ × β) (extra : List (κ × β)) :
    overlay base (pair :: extra) = overlay (put pair.1 pair.2 base) extra := rfl

/-- A key that is there keeps its place, any other goes to the end. -/
theorem keys_put (k : κ) (v : β) (entries : List (κ × β)) :
    keys (put k v entries) = if has k entries then keys entries else keys entries ++ [k] := by
  induction entries with
  | nil => simp [put, keys, has]
  | cons pair rest ih =>
    obtain ⟨k', v'⟩ := pair
    by_cases h : k' == k
    · simp [put, keys, has, get?, h]
    · simp only [put, keys, has, get?, h, Bool.false_eq_true, if_false, List.map_cons] at ih ⊢
      rw [ih]
      by_cases found : (get? k rest).isSome = true <;> simp [found]

end RequestWriter.Entries
