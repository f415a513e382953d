import RequestWriter.Proofs.Yaml.Node
import RequestWriter.Proofs.Json.Denoted

/-!
# Documents of one value

A node that stands for a value has no problem on any level, and its value is that one. Such a node
has no way back and no merge key: whatever the containers of the document are, its pairs are its
own, and it is found where it stands. The numbers of containers fall from the outside to the inside,
so none of them is met inside itself.
-/

namespace RequestWriter.Yaml.Node

open Json.Grammar (assigned)

variable {containers : Index} {high : Nat} {n : Node} {v : Value}

theorem Stands.follow (h : Stands high n v) : follow containers n = n := by
  cases h <;> rfl

/-- A scalar with a value is no container. -/
theorem tag_of_value {tag : Tag} {text : String} {s : Scalar} (h : tag.value text = .ok s) :
    tag ≠ .sequence ∧ tag ≠ .mapping := by
  constructor <;> rintro rfl <;> cases h

theorem Stands.ownProblem? (h : Stands high n v) : n.ownProblem? = none := by
  cases h with
  | sequence | mapping => rfl
  | @scalar _ tag text s h =>
    obtain ⟨noSequence, noMapping⟩ := tag_of_value h
    cases tag <;> simp_all [Node.ownProblem?]

/-- A mapping whose keys are texts has its own pairs only. -/
theorem pairsOf?_texts {α : Type} (parts : List α) (key : α → String) (inner : α → Node) :
    pairsOf? containers (parts.map fun p => (.scalar .text (key p), inner p)) =
      some (parts.map fun p => (.scalar .text (key p), inner p)) := by
  have own : (parts.map fun p => (Node.scalar .text (key p), inner p)).partition
      (fun p => isMerge p.1) = ([], parts.map fun p => (.scalar .text (key p), inner p)) := by
    rw [List.partition_eq_filter_filter, List.filter_eq_nil_iff.mpr, List.filter_eq_self.mpr] <;>
      simp [isMerge]
  rw [pairsOf?, flatPairs?]
  simp only [own]
  simp [asKey]

section Problems

theorem Stands.innerProblem? (h : Stands high n v) : n.innerProblem? containers = none := by
  cases h with
  | @scalar _ tag text s h =>
    obtain ⟨noSequence, noMapping⟩ := tag_of_value h
    simp [Node.innerProblem?, noSequence, noMapping]
  | @sequence _ id parts below h =>
    rw [Node.innerProblem?, if_pos rfl, List.findSome?_eq_none_iff]
    intro item mem
    obtain ⟨p, hp, rfl⟩ := List.mem_map.mp mem
    exact (h p hp).ownProblem?
  | @mapping _ id parts below h =>
    rw [Node.innerProblem?, if_pos rfl, pairsOf?_texts]
    rw [List.findSome?_eq_none_iff]
    intro pair mem
    obtain ⟨p, hp, rfl⟩ := List.mem_map.mp mem
    exact (h p hp).ownProblem?

theorem Stands.children (h : Stands high n v) :
    ∀ child ∈ n.children containers, ∃ high v, Stands high child v := by
  cases h with
  | scalar => simp [Node.children]
  | @sequence _ id parts below h =>
    rw [Node.children, List.map_map]
    intro child mem
    obtain ⟨p, hp, rfl⟩ := List.mem_map.mp mem
    exact ⟨_, _, (h p hp).follow.symm ▸ h p hp⟩
  | @mapping _ id parts below h =>
    rw [Node.children, pairsOf?_texts, Option.getD_some, List.map_map]
    intro child mem
    obtain ⟨p, hp, rfl⟩ := List.mem_map.mp mem
    exact ⟨_, _, (h p hp).follow.symm ▸ h p hp⟩

theorem mem_of_mem_unfilled {filled : List Nat} {level : List Node}
    (h : n ∈ (unfilled filled level).1) : n ∈ level := by
  fun_induction unfilled filled level with
  | case1 => exact h
  | case2 filled node rest noId others all eq ih
  | case4 filled node rest id _ new others all eq ih =>
    rcases List.mem_cons.mp h with rfl | mem
    · exact List.mem_cons_self
    · exact List.mem_cons_of_mem _ (ih (eq ▸ mem))
  | case3 filled node rest id _ known ih => exact List.mem_cons_of_mem _ (ih h)

/-- Nodes that stand for values have no problem on any level. -/
theorem levelProblem?_eq_none {bound : Nat} {filled : List Nat} {level : List Node}
    (h : ∀ n ∈ level, ∃ high v, Stands high n v) :
    levelProblem? containers bound filled level = none := by
  induction bound generalizing filled level with
  | zero => rfl
  | succ bound ih =>
    have stands : ∀ n ∈ (unfilled filled level).1, ∃ high v, Stands high n v :=
      fun n hn => h n (mem_of_mem_unfilled hn)
    rw [levelProblem?]
    dsimp only
    split
    · rfl
    · rw [ih fun child mem => ?_, Option.or_none, List.findSome?_eq_none_iff]
      · intro n hn
        obtain ⟨high, v, standing⟩ := stands n hn
        exact standing.innerProblem?
      · obtain ⟨n, hn, mem⟩ := List.mem_flatMap.mp mem
        obtain ⟨high, v, standing⟩ := stands n hn
        exact standing.children child mem

theorem Stands.problem? (h : Stands high n v) : n.problem? containers = none := by
  rw [Node.problem?, h.ownProblem?, Option.none_or]
  exact levelProblem?_eq_none (by simpa using ⟨high, v, h⟩)

end Problems

section Values

theorem length_index_item {items : List Node} (mem : n ∈ items) :
    n.index.length ≤ (indexItems items).length := by
  induction items with
  | nil => cases mem
  | cons item items ih =>
    rw [indexItems, List.length_append]
    rcases List.mem_cons.mp mem with rfl | mem
    · omega
    · have := ih mem
      omega

theorem length_index_pair {pairs : List (Node × Node)} {pair : Node × Node} (mem : pair ∈ pairs) :
    pair.2.index.length ≤ (indexPairs pairs).length := by
  induction pairs with
  | nil => cases mem
  | cons head pairs ih =>
    obtain ⟨key, inner⟩ := head
    rw [indexPairs, List.length_append, List.length_append]
    rcases List.mem_cons.mp mem with rfl | mem
    · change inner.index.length ≤ _
      omega
    · have := ih mem
      omega

/-- A number that the containers around do not reach. -/
theorem notMem_around {around : List Nat} {id : Nat} (below : id < high)
    (outside : ∀ i ∈ around, high ≤ i) : id ∉ around :=
  fun mem => Nat.not_lt_of_le (outside id mem) below

theorem le_of_mem_inner {around : List Nat} {id : Nat} (below : id < high)
    (outside : ∀ i ∈ around, high ≤ i) : ∀ i ∈ id :: around, id ≤ i :=
  List.forall_mem_cons.mpr
    ⟨Nat.le_refl id, fun i hi => Nat.le_trans (Nat.le_of_lt below) (outside i hi)⟩

/-- The value of a node that stands for one, in any containers whose numbers are higher. -/
theorem Stands.value_eq (h : Stands high n v) {bound : Nat} {around : List Nat}
    (enough : n.index.length < bound) (outside : ∀ i ∈ around, high ≤ i) :
    value containers bound around n = v := by
  induction h generalizing bound around with
  | scalar h =>
    obtain ⟨bound, rfl⟩ : ∃ k, bound = k + 1 := ⟨bound - 1, by omega⟩
    rw [value, scalarValue, h]
    rfl
  | @sequence high id parts below h ih =>
    obtain ⟨bound, rfl⟩ : ∃ k, bound = k + 1 := ⟨bound - 1, by omega⟩
    rw [index, List.length_cons] at enough
    rw [value, if_neg (by simpa using notMem_around below outside), List.map_map]
    refine congrArg Value.list (List.map_congr_left fun p hp => ?_)
    have room := length_index_item (List.mem_map_of_mem (f := Prod.fst) hp)
    exact ih p hp (by omega) (le_of_mem_inner below outside)
  | @mapping high id parts below h ih =>
    obtain ⟨bound, rfl⟩ : ∃ k, bound = k + 1 := ⟨bound - 1, by omega⟩
    rw [index, List.length_cons] at enough
    rw [value, if_neg (by simpa using notMem_around below outside), pairsOf?_texts,
      Option.getD_some]
    simp only [List.map_map]
    rw [← Entries.mapping_ofPairs, List.map_map]
    refine congrArg (fun pairs => Value.mapping (Entries.ofPairs pairs))
      (List.map_congr_left fun p hp => Prod.ext rfl ?_)
    have room := length_index_pair (List.mem_map_of_mem
      (f := fun p : String × Node × Value => (Node.scalar .text p.1, p.2.1)) hp)
    exact ih p hp (Nat.lt_of_le_of_lt room (by omega)) (le_of_mem_inner below outside)

theorem anyRef_eq_false {items : List Value} (h : ∀ v ∈ items, hasRef v = false) :
    anyRef items = false := by
  induction items with
  | nil => rfl
  | cons v items ih =>
    rw [anyRef, h v List.mem_cons_self, ih fun v hv => h v (List.mem_cons_of_mem _ hv)]
    rfl

theorem anyEntryRef_eq_false {entries : List (Scalar × Value)}
    (h : ∀ entry ∈ entries, hasRef entry.2 = false) : anyEntryRef entries = false := by
  induction entries with
  | nil => rfl
  | cons entry entries ih =>
    rw [anyEntryRef, h entry List.mem_cons_self, ih fun e he => h e (List.mem_cons_of_mem _ he)]
    rfl

theorem hasRef_of_built {leaf : Scalar → Prop} (h : v.Built leaf) : hasRef v = false := by
  induction h with
  | scalar => rfl
  | list _ ih => exact anyRef_eq_false ih
  | mapping _ _ ih => exact anyEntryRef_eq_false ih

/-- A tree that stands for a value without references is the document of the value. -/
theorem Stands.toDocument {leaf : Scalar → Prop} (h : Stands high n v) (built : v.Built leaf) :
    n.toDocument n.index = ⟨[], v⟩ := by
  have value : valueAlone n.index n = v :=
    h.value_eq (by rw [valueBound]; omega) (by simp)
  rw [Node.toDocument, value]
  simp [hasRef_of_built built]

end Values

end RequestWriter.Yaml.Node

namespace RequestWriter.Yaml

/-- Tokens spell trees with texts for keys. -/
theorem Node.built_of_spells {ts : List Token} {v : Value} (h : Spells ts v) :
    v.Built fun _ => True := by
  induction h with
  | scalar => exact .scalar trivial
  | @list parts _ ih =>
    refine .list fun v mem => ?_
    obtain ⟨p, hp, rfl⟩ := List.mem_map.mp mem
    exact ih p hp
  | @object pairs _ ih =>
    obtain ⟨entries, eq, texts, -, found⟩ := Json.assigned_eq (pairs.map Pair.assignment)
    rw [eq]
    refine .mapping texts fun entry mem => ?_
    obtain ⟨_, assignment, value⟩ := found entry mem
    obtain ⟨pair, hp, rfl⟩ := List.mem_map.mp assignment
    exact value ▸ ih pair hp

/-- A text of allowed characters whose tokens spell a value is the document of the value. -/
theorem load_of_spells {text : String} {ts : List Token} {v : Value}
    (allowed : ∀ c ∈ text.toList, isAllowed c) (scanned : tokens text = (ts ++ [.endOfText], none))
    (spells : Node.Spells ts v) : load text = .ok ⟨[], v⟩ := by
  obtain ⟨n, read, stands⟩ := Node.ofTokens_of_spells spells
  rw [load, if_neg (by simpa using allowed), Node.ofText_eq scanned read]
  dsimp only
  rw [stands.problem?]
  exact congrArg Except.ok (stands.toDocument (Node.built_of_spells spells))

end RequestWriter.Yaml
