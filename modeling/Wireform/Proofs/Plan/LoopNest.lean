import Mathlib
import Wireform.Plan.Codec
import Wireform.Plan.Size

/-! # Bytes below a nest of loops

A nest of loops, one for each dimension, visits every tuple of indices below the numbers of times
that its loops run (`Wireform.indexTuples`). The bytes that it transfers are summed over these
tuples. With elements of one width they are that width times the product of the numbers
(`Wireform.loopBytes_const`), and with elements of at least one byte they are at least that product
(`Wireform.prod_le_loopBytes`).
-/

namespace Wireform

/-- How often the loop of a dimension runs when length members have the given values. A loop with a
negative extent does not run. -/
def Dimension.count (lengths : String → Nat) (dimension : Dimension) : Nat :=
  if dimension.isConstant then
    match dimension.extent with
    | .ok extent => extent.toNat
    | .error _ => 0
  else lengths dimension.size

/-- The indices of the elements below loops that run the given numbers of times, the outermost
first. -/
def indexTuples : List Nat → List (List Nat)
  | [] => [[]]
  | count :: counts => (List.range count).flatMap fun i => (indexTuples counts).map (i :: ·)

/-- The bytes of all elements below loops that run the given numbers of times. -/
def loopBytes (counts : List Nat) (element : List Nat → Nat) : Nat :=
  ((indexTuples counts).map element).sum

private theorem length_indexTuples (counts : List Nat) :
    (indexTuples counts).length = counts.prod := by
  induction counts with
  | nil => rfl
  | cons count counts ih =>
      have row : ∀ i, ((indexTuples counts).map (i :: ·)).length = counts.prod := by
        intro i
        rw [List.length_map, ih]
      simp only [indexTuples, List.length_flatMap, row]
      rw [List.map_const', List.length_range, List.sum_replicate_nat, List.prod_cons]

/-- A loop nest over elements of one width takes the product of its counts many of them. -/
theorem loopBytes_const (counts : List Nat) (width : Nat) :
    loopBytes counts (fun _ => width) = width * counts.prod := by
  rw [loopBytes, List.map_const', List.sum_replicate_nat, length_indexTuples, Nat.mul_comm]

/-- Elements of at least one byte take at least as many bytes as there are elements. -/
theorem prod_le_loopBytes {counts : List Nat} {element : List Nat → Nat}
    (occupied : ∀ index ∈ indexTuples counts, 1 ≤ element index) :
    counts.prod ≤ loopBytes counts element := by
  have each : ∀ value ∈ (indexTuples counts).map element, 1 ≤ value := by
    intro value member
    obtain ⟨index, present, rfl⟩ := List.mem_map.mp member
    exact occupied index present
  have bound := List.length_le_sum_of_one_le _ each
  rw [List.length_map, length_indexTuples] at bound
  exact bound

/-- A nest with a loop that does not run transfers nothing. -/
theorem loopBytes_of_prod_eq_zero {counts : List Nat} (idle : counts.prod = 0)
    (element : List Nat → Nat) : loopBytes counts element = 0 := by
  rw [← length_indexTuples, List.length_eq_zero_iff] at idle
  rw [loopBytes, idle]
  rfl

/-! ### Plans -/

/-- The bytes of one element: the width of its type, or what is assigned to it. -/
def elementBytes (bytes : Member → List Nat → Nat) (member : Member) (width : Option Nat)
    (index : List Nat) : Nat :=
  match width with
  | some width => width
  | none => bytes member index

/-- The bytes that a step transfers. -/
def FieldStep.bytes (lengths : String → Nat) (element : List Nat → Nat) (step : FieldStep) : Nat :=
  loopBytes (step.loops.map (Dimension.count lengths)) element

/-- The bytes that the steps of a codec transfer. -/
def CodecPlan.bytes (lengths : String → Nat) (bytes : Member → List Nat → Nat)
    (plan : CodecPlan) : Nat :=
  (plan.steps.map fun step =>
    step.bytes lengths (elementBytes bytes step.member step.width)).sum

end Wireform
