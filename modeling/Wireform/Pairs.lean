/-!
# Lists of pairs

A list of pairs gives values to keys. Setting a pair replaces the value of its key, which keeps its
place, and a new key comes last.

- `Pairs.set` sets a pair, and `Pairs.setAll` sets pairs in turn
- `Pairs.lookup_set` says that setting a pair changes the value of no other key
- `Pairs.nodup_keys_setAll` says that no key occurs twice
-/

namespace Wireform.Pairs

variable {Key Value : Type} [DecidableEq Key]

/-- A list of pairs with one of them set. -/
def set (pairs : List (Key × Value)) (pair : Key × Value) : List (Key × Value) :=
  match pairs with
  | [] => [pair]
  | first :: rest => if first.1 = pair.1 then pair :: rest else first :: set rest pair

/-- A list of pairs with others set in turn. -/
def setAll (pairs later : List (Key × Value)) : List (Key × Value) := later.foldl set pairs

variable {pairs later : List (Key × Value)} {pair other : Key × Value} {key : Key} {value : Value}

/-! ### Values -/

section Values

variable [BEq Key] [LawfulBEq Key]

private theorem lookup_cons (pair : Key × Value) (pairs : List (Key × Value)) (key : Key) :
    (pair :: pairs).lookup key = if key = pair.1 then some pair.2 else pairs.lookup key := by
  obtain ⟨first, value⟩ := pair
  by_cases same : key = first
  · simp [same]
  · simp [List.lookup_cons, same, beq_false_of_ne same]

/-- Setting a pair changes the value of no other key. -/
theorem lookup_set (pairs : List (Key × Value)) (pair : Key × Value) (key : Key) :
    (set pairs pair).lookup key = if key = pair.1 then some pair.2 else pairs.lookup key := by
  induction pairs with
  | nil => exact lookup_cons pair [] key
  | cons first rest ih =>
      unfold set
      split
      · next same =>
          rw [lookup_cons, lookup_cons, same]
          split <;> rfl
      · next apart =>
          rw [lookup_cons, lookup_cons, ih]
          by_cases found : key = first.1
          · simp only [found, apart, ↓reduceIte]
          · simp only [found, ↓reduceIte]

/-- A value is found after all pairs are set when no other pair gives its key another one. -/
theorem lookup_setAll (present : pairs.lookup key = some value ∨ (key, value) ∈ later)
    (unique : ∀ pair ∈ later, pair.1 = key → pair.2 = value) :
    (setAll pairs later).lookup key = some value := by
  induction later generalizing pairs with
  | nil => exact present.resolve_right List.not_mem_nil
  | cons pair later ih =>
      refine ih ?_ fun next member => unique next (List.mem_cons_of_mem _ member)
      rw [lookup_set]
      by_cases same : key = pair.1
      · rw [if_pos same, unique pair List.mem_cons_self same.symm]
        exact .inl rfl
      · rw [if_neg same]
        rcases present with found | member
        · exact .inl found
        · rcases List.mem_cons.mp member with rfl | member
          · exact absurd rfl same
          · exact .inr member

end Values

/-! ### Keys -/

private theorem mem_of_mem_set (member : other ∈ set pairs pair) :
    other = pair ∨ other ∈ pairs := by
  induction pairs with
  | nil => exact .inl (List.mem_singleton.mp member)
  | cons first rest ih =>
      unfold set at member
      split at member
      · exact (List.mem_cons.mp member).imp_right (List.mem_cons_of_mem first)
      · rcases List.mem_cons.mp member with rfl | member
        · exact .inr List.mem_cons_self
        · exact (ih member).imp_right (List.mem_cons_of_mem first)

/-- Setting pairs brings in no others. -/
theorem mem_of_mem_setAll (member : other ∈ setAll pairs later) :
    other ∈ pairs ∨ other ∈ later := by
  induction later generalizing pairs with
  | nil => exact .inl member
  | cons pair later ih =>
      rcases ih member with before | after
      · rcases mem_of_mem_set before with rfl | before
        · exact .inr List.mem_cons_self
        · exact .inl before
      · exact .inr (List.mem_cons_of_mem pair after)

private theorem mem_keys_set :
    key ∈ (set pairs pair).map Prod.fst ↔ key = pair.1 ∨ key ∈ pairs.map Prod.fst := by
  induction pairs with
  | nil => simp [set]
  | cons first rest ih =>
      unfold set
      split
      · next same => simp [same]
      · rw [List.map_cons, List.mem_cons, ih, List.map_cons, List.mem_cons]
        exact or_left_comm

/-- Setting pairs loses no key. -/
theorem mem_keys_setAll :
    key ∈ (setAll pairs later).map Prod.fst ↔
      key ∈ pairs.map Prod.fst ∨ key ∈ later.map Prod.fst := by
  induction later generalizing pairs with
  | nil => simp [setAll]
  | cons pair later ih =>
      change key ∈ (setAll (set pairs pair) later).map Prod.fst ↔ _
      rw [ih, mem_keys_set, List.map_cons, List.mem_cons, or_assoc, or_left_comm]

private theorem nodup_keys_set (distinct : (pairs.map Prod.fst).Nodup) (pair : Key × Value) :
    ((set pairs pair).map Prod.fst).Nodup := by
  induction pairs with
  | nil => exact List.nodup_cons.mpr ⟨List.not_mem_nil, List.nodup_nil⟩
  | cons first rest ih =>
      obtain ⟨fresh, distinct⟩ := List.nodup_cons.mp distinct
      unfold set
      split
      · next same => exact List.nodup_cons.mpr ⟨same ▸ fresh, distinct⟩
      · next apart =>
          refine List.nodup_cons.mpr ⟨fun again => ?_, ih distinct⟩
          exact (mem_keys_set.mp again).elim apart fresh

/-- A pair replaces that of its key, so no key occurs twice. -/
theorem nodup_keys_setAll (distinct : (pairs.map Prod.fst).Nodup) (later : List (Key × Value)) :
    ((setAll pairs later).map Prod.fst).Nodup := by
  induction later generalizing pairs with
  | nil => exact distinct
  | cons pair later ih => exact ih (nodup_keys_set distinct pair)

end Wireform.Pairs
