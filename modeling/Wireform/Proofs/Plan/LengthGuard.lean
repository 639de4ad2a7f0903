import Wireform.Proofs.Plan.LoopNest

/-! # The check of a length before its loops

Before a decoder loops over an array of primitives with a dynamic innermost extent, it refuses a
length that exceeds the bytes that are left. The check looks at the innermost extent alone, but the
bytes depend on all of them. It admits whatever the encoder writes exactly when the length is zero
or every outer loop runs (`Wireform.length_le_bytes_iff`): below an outer loop that does not run
nothing is written, and a length that is not zero is refused all the same
(`Wireform.length_not_le_bytes_of_no_rows`).
-/

namespace Wireform

/-- The length that is checked is the innermost extent. -/
theorem FieldStep.loops_of_boundedLength? {step : FieldStep} {length : String}
    (bounded : step.boundedLength? = some length) :
    ∃ outer inner, step.loops = outer ++ [inner] ∧ inner.isConstant = false ∧
      inner.size = length := by
  unfold boundedLength? at bounded
  split at bounded
  · split at bounded
    · cases bounded
    · next inner last =>
        split at bounded
        · cases bounded
        · next dynamic =>
            obtain ⟨outer, shape⟩ := List.getLast?_eq_some_iff.mp last
            exact ⟨outer, inner, shape, Bool.eq_false_iff.mpr dynamic, Option.some.inj bounded⟩
  · cases bounded

/-- The elements of a step whose innermost loop runs as often as a length member says. -/
theorem prod_counts (outer : List Dimension) {inner : Dimension}
    (dynamic : inner.isConstant = false) (lengths : String → Nat) :
    ((outer ++ [inner]).map (Dimension.count lengths)).prod =
      (outer.map (Dimension.count lengths)).prod * lengths inner.size := by
  have innermost : inner.count lengths = lengths inner.size := by
    rw [Dimension.count, dynamic]
    rfl
  rw [List.map_append, List.prod_append_nat, List.map_cons, List.map_nil, innermost,
    List.prod_cons, List.prod_nil, Nat.mul_one]

/-- **When the check of a length is sound.** Let every element of a step take at least one byte. The
step then takes at least as many bytes as the checked length says, and the check refuses no buffer
that still holds these bytes, exactly when the length is zero or all outer loops run. -/
theorem length_le_bytes_iff {step : FieldStep} {length : String}
    (bounded : step.boundedLength? = some length) {lengths : String → Nat}
    {element : List Nat → Nat}
    (occupied : ∀ index ∈ indexTuples (step.loops.map (Dimension.count lengths)),
      1 ≤ element index) :
    (lengths length ≤ step.bytes lengths element ∧
        ∀ pos maxlen : Int, pos + step.bytes lengths element ≤ maxlen →
          ¬ (lengths length : Int) > maxlen - pos) ↔
      (lengths length = 0 ∨ ∀ dimension ∈ step.loops.dropLast, dimension.count lengths ≠ 0) := by
  obtain ⟨outer, inner, shape, dynamic, rfl⟩ := step.loops_of_boundedLength? bounded
  have elements := prod_counts outer dynamic lengths
  rw [shape] at occupied
  rw [FieldStep.bytes, shape, List.dropLast_concat]
  constructor
  · rintro ⟨enough, -⟩
    by_cases idle : (outer.map (Dimension.count lengths)).prod = 0
    · -- nothing is written, so only a length of zero is covered
      rw [idle, Nat.zero_mul] at elements
      rw [loopBytes_of_prod_eq_zero elements] at enough
      exact .inl (Nat.le_zero.mp enough)
    · right
      intro dimension member zero
      exact idle (List.prod_eq_zero_iff_exists_zero_nat.mpr
        ⟨_, List.mem_map_of_mem member, zero⟩)
  · intro condition
    have enough : lengths inner.size ≤
        loopBytes ((outer ++ [inner]).map (Dimension.count lengths)) element := by
      rcases condition with zero | running
      · rw [zero]
        exact Nat.zero_le _
      · have rows : 1 ≤ (outer.map (Dimension.count lengths)).prod := by
          apply List.prod_pos_iff_forall_pos_nat.mpr
          intro count present
          obtain ⟨dimension, member, rfl⟩ := List.mem_map.mp present
          exact Nat.pos_of_ne_zero (running dimension member)
        calc lengths inner.size
          _ ≤ (outer.map (Dimension.count lengths)).prod * lengths inner.size :=
              Nat.le_mul_of_pos_left _ rows
          _ = ((outer ++ [inner]).map (Dimension.count lengths)).prod := elements.symm
          _ ≤ loopBytes ((outer ++ [inner]).map (Dimension.count lengths)) element :=
              prod_le_loopBytes occupied
    refine ⟨enough, ?_⟩
    intro pos maxlen fits
    omega

/-- The step for a table of bytes with dynamic rows and columns checks the columns. With two rows of
three columns the table takes more bytes than the check asks for. -/
theorem length_le_bytes_iff_table :
    let step := FieldStep.ofMember
      ⟨"cells", .primitive .byte, [.dynamic "rows", .dynamic "columns"]⟩
    let lengths := fun name => if name = "rows" then 2 else 3
    step.boundedLength? = some "columns" ∧ step.bytes lengths (fun _ => 1) = 6 ∧
      lengths "columns" ≤ step.bytes lengths (fun _ => 1) ∧
      ∀ pos maxlen : Int, pos + step.bytes lengths (fun _ => 1) ≤ maxlen →
        ¬ (lengths "columns" : Int) > maxlen - pos := by
  intro step lengths
  have bounded : step.boundedLength? = some "columns" := by decide
  have running : ∀ dimension ∈ step.loops.dropLast, dimension.count lengths ≠ 0 := by decide
  refine ⟨bounded, by decide, ?_⟩
  exact (length_le_bytes_iff bounded fun _ _ => Nat.le_refl 1).mpr (.inr running)

/-- Without rows, a table with one column takes no bytes, and the check of the columns refuses the
buffer that ends where the table does. -/
theorem length_not_le_bytes_of_no_rows :
    let step := FieldStep.ofMember
      ⟨"cells", .primitive .byte, [.dynamic "rows", .dynamic "columns"]⟩
    let lengths := fun name => if name = "rows" then 0 else 1
    step.boundedLength? = some "columns" ∧ step.bytes lengths (fun _ => 1) = 0 ∧
      ¬ lengths "columns" ≤ step.bytes lengths (fun _ => 1) ∧
      ∃ pos maxlen : Int, pos + step.bytes lengths (fun _ => 1) ≤ maxlen ∧
        (lengths "columns" : Int) > maxlen - pos := by
  exact ⟨by decide, by decide, by decide, 16, 16, by decide, by decide⟩

end Wireform
