import Wireform.Proofs.Plan.Build
import Wireform.Proofs.Plan.LoopNest
import Wireform.Proofs.Source.Names

/-! # The size plan counts what the codec transfers

The size of a struct is planned in two parts: the members of a fixed width with constant dimensions
are multiplied out beforehand, and the others are summed element by element. The codec makes no such
difference, it loops over every member. Both come to the same number of bytes
(`Wireform.sizePlan_bytes_eq_codec_bytes`).

A loop with a negative extent does not run, while a negative factor makes a product negative, so
members that are multiplied out must not have a negative extent unless another one is zero
(`Wireform.Member.Unsigned`). Definitions that are read from a file have digits for their constant
dimensions, and so no negative extents (`Wireform.Member.ReadFrom.unsigned`).
-/

namespace Wireform

/-- A member whose extents, all of them constant, multiply to the number of its elements: none is
negative, or one is zero. -/
def Member.Unsigned (member : Member) : Prop :=
  ∀ extents, member.dimensions.mapM Dimension.extent = .ok extents →
    (∀ extent ∈ extents, 0 ≤ extent) ∨ 0 ∈ extents

/-- The bytes that a term counts element by element. -/
def SizeTerm.loopedBytes (lengths : String → Nat) (bytes : Member → List Nat → Nat) :
    SizeTerm → Nat
  | .constant .. => 0
  | .perElement member loops width =>
      loopBytes (loops.map (Dimension.count lengths)) (elementBytes bytes member width)

/-- All bytes that a term counts. -/
def SizeTerm.bytes (lengths : String → Nat) (bytes : Member → List Nat → Nat)
    (term : SizeTerm) : Int :=
  term.constantBytes + (term.loopedBytes lengths bytes : Nat)

/-- The bytes that a size plan counts: those that are known beforehand, and those of the terms that
are summed element by element. -/
def SizePlan.bytes (lengths : String → Nat) (bytes : Member → List Nat → Nat)
    (plan : SizePlan) : Int :=
  plan.constantBytes + ((plan.elementTerms.map (SizeTerm.loopedBytes lengths bytes)).sum : Nat)

section Products

private theorem foldl_mul (factors : List Int) (start : Int) :
    factors.foldl (· * ·) start = start * factors.prod := by
  induction factors generalizing start with
  | nil => simp
  | cons factor factors ih => rw [List.foldl_cons, ih, List.prod_cons, Int.mul_assoc]

/-- Extents that are not negative multiply to the number of index tuples. -/
theorem prod_of_nonneg {extents : List Int} (nonneg : ∀ extent ∈ extents, 0 ≤ extent) :
    extents.prod = ((extents.map Int.toNat).prod : Nat) := by
  induction extents with
  | nil => rfl
  | cons extent extents ih =>
      have first := Int.toNat_of_nonneg (nonneg extent List.mem_cons_self)
      have rest := ih fun later member => nonneg later (List.mem_cons_of_mem _ member)
      rw [List.map_cons, List.prod_cons, List.prod_cons, Int.natCast_mul, first, rest]

private theorem prod_of_mem_zero {extents : List Int} (zero : 0 ∈ extents) :
    extents.prod = ((extents.map Int.toNat).prod : Nat) := by
  have counted : 0 ∈ extents.map Int.toNat := List.mem_map.mpr ⟨0, zero, rfl⟩
  have whole : extents.prod = 0 := List.prod_eq_zero zero
  have natural : (extents.map Int.toNat).prod = 0 :=
    List.prod_eq_zero_iff_exists_zero_nat.mpr ⟨0, counted, rfl⟩
  rw [whole, natural]
  rfl

/-- Constant dimensions are counted by their extents. -/
theorem count_of_extents {dimensions : List Dimension} {extents : List Int}
    (constant : dimensions.all (·.isConstant) = true)
    (read : dimensions.mapM Dimension.extent = .ok extents) (lengths : String → Nat) :
    dimensions.map (Dimension.count lengths) = extents.map Int.toNat := by
  induction dimensions generalizing extents with
  | nil =>
      obtain rfl := Outcome.mapM_nil_eq_ok.mp read
      rfl
  | cons dimension dimensions ih =>
      obtain ⟨extent, rest, first, others, rfl⟩ := Outcome.mapM_cons_eq_ok.mp read
      rw [List.all_cons, Bool.and_eq_true] at constant
      have counted : dimension.count lengths = extent.toNat := by
        rw [Dimension.count, if_pos constant.1, first]
      rw [List.map_cons, List.map_cons, counted, ih constant.2 others]

end Products

/-! ### Unsigned extents -/

private theorem Numeral.eq_sign_of_plainChar {c : Char} (sign : plainChar c = '-') : c = '-' := by
  unfold plainChar at sign
  split at sign
  · exact sign
  · split at sign
    · exact absurd sign (by decide)
    · split at sign
      · exact absurd sign (Nat.digitChar_ne '-' rfl)
      · exact absurd sign (by decide)

/-- A numeral without a sign is not negative. -/
theorem Numeral.nonneg_of_read {base : Nat} {text : String} {value : Int}
    (unsigned : '-' ∉ text.toList) (found : read base text = .ok value) : 0 ≤ value := by
  have plain : '-' ∉ (text.toList.map plainChar).dropWhile isOuterBlank := by
    intro member
    obtain ⟨c, present, same⟩ := List.mem_map.mp ((List.dropWhile_sublist _).subset member)
    exact unsigned (eq_sign_of_plainChar same ▸ present)
  have positive : (splitSign ((text.toList.map plainChar).dropWhile isOuterBlank)).1 = false := by
    generalize (text.toList.map plainChar).dropWhile isOuterBlank = chars at plain
    unfold splitSign
    split
    · rfl
    · exact absurd List.mem_cons_self plain
    · rfl
  unfold read at found
  simp only [positive, Bool.false_eq_true, ↓reduceIte] at found
  split at found
  · cases found
  · split at found
    · cases found
    · split at found
      · cases found
      · rw [← Except.ok.inj found]
        exact Int.natCast_nonneg _

/-- The extents of members that were read from a file are not negative. -/
theorem Member.ReadFrom.unsigned {named : String → Prop} {member : Member}
    (read : member.ReadFrom named) (constant : member.dimensions.all (·.isConstant) = true) :
    member.Unsigned := by
  intro extents found
  left
  intro extent listed
  obtain ⟨dimension, present, extentRead⟩ := Outcome.exists_of_mem_mapM found listed
  have fixed := List.all_eq_true.mp constant dimension present
  cases read.dimensions dimension present with
  | dynamic name => cases fixed
  | constant digits =>
      refine Numeral.nonneg_of_read ?_ extentRead
      intro sign
      have allDigits := (Bool.and_eq_true_iff.mp digits).2
      exact absurd (List.all_eq_true.mp allDigits '-' sign) (by decide)

/-! ### Members -/

variable (lengths : String → Nat) (bytes : Member → List Nat → Nat)

/-- **One member.** What its size term counts, beforehand or element by element, is what its step
transfers. -/
theorem sizeTerm_bytes {member : Member} {term : SizeTerm}
    (found : SizeTerm.ofMember member = .ok term)
    (unsigned : member.type.width?.isSome = true →
      member.dimensions.all (·.isConstant) = true → member.Unsigned) :
    term.bytes lengths bytes =
      ((FieldStep.ofMember member).bytes lengths
        (elementBytes bytes member member.type.width?) : Nat) := by
  rcases SizeTerm.ofMember_eq_ok found with ⟨width, extents, fixed, constant, read, rfl⟩ | ⟨rfl, -⟩
  · have counts := count_of_extents constant read lengths
    have element : elementBytes bytes member (some width) = fun _ => width := rfl
    have product : extents.prod = ((extents.map Int.toNat).prod : Nat) := by
      rcases unsigned (by rw [fixed]; rfl) constant extents read with nonneg | zero
      · exact prod_of_nonneg nonneg
      · exact prod_of_mem_zero zero
    rw [SizeTerm.bytes, SizeTerm.constantBytes, SizeTerm.loopedBytes, FieldStep.bytes,
      FieldStep.ofMember, counts, fixed, element, loopBytes_const, foldl_mul, product,
      Int.natCast_mul]
    exact Int.add_zero _
  · rw [SizeTerm.bytes, SizeTerm.constantBytes, Int.zero_add]
    rfl

/-- A member has a term where its constant dimensions convert. -/
theorem exists_sizeTerm {member : Member}
    (converts : ∀ dimension ∈ member.dimensions, dimension.isConstant = true →
      ∃ extent, dimension.extent = .ok extent) :
    ∃ term, SizeTerm.ofMember member = .ok term := by
  unfold SizeTerm.ofMember
  split
  · split
    · next constant =>
        obtain ⟨extents, read⟩ := Outcome.exists_mapM_eq_ok fun dimension listed =>
          converts dimension listed (List.all_eq_true.mp constant dimension listed)
        exact ⟨_, Outcome.bind_eq_ok.mpr ⟨extents, read, rfl⟩⟩
    · exact ⟨_, rfl⟩
  · exact ⟨_, rfl⟩

/-! ### Structs -/

/-- The two parts of a size plan are made up of the two parts of its terms. -/
theorem SizePlan.bytes_cons (term : SizeTerm) (terms : List SizeTerm) :
    SizePlan.bytes lengths bytes ⟨term :: terms⟩ =
      term.bytes lengths bytes + SizePlan.bytes lengths bytes ⟨terms⟩ := by
  have beforehand : SizePlan.constantBytes ⟨term :: terms⟩ =
      term.constantBytes + SizePlan.constantBytes ⟨terms⟩ := rfl
  have looped : ((SizePlan.elementTerms ⟨term :: terms⟩).map
        (SizeTerm.loopedBytes lengths bytes)).sum =
      term.loopedBytes lengths bytes +
        ((SizePlan.elementTerms ⟨terms⟩).map (SizeTerm.loopedBytes lengths bytes)).sum := by
    cases term with
    | constant member width extents => exact (Nat.zero_add _).symm
    | perElement member loops width => rfl
  rw [SizePlan.bytes, SizePlan.bytes, SizeTerm.bytes, beforehand, looped]
  omega

/-- The terms of some members count what the steps of these members transfer. -/
theorem sizePlan_bytes_of_mapM {members : List Member} {terms : List SizeTerm}
    (unsigned : ∀ member ∈ members, member.type.width?.isSome = true →
      member.dimensions.all (·.isConstant) = true → member.Unsigned)
    (planned : members.mapM SizeTerm.ofMember = .ok terms) :
    SizePlan.bytes lengths bytes ⟨terms⟩ =
      (CodecPlan.bytes lengths bytes ⟨.encode, members.map FieldStep.ofMember⟩ : Nat) := by
  induction members generalizing terms with
  | nil =>
      obtain rfl := Outcome.mapM_nil_eq_ok.mp planned
      rfl
  | cons member members ih =>
      obtain ⟨term, rest, first, others, rfl⟩ := Outcome.mapM_cons_eq_ok.mp planned
      have own := sizeTerm_bytes lengths bytes first (unsigned member List.mem_cons_self)
      have further := ih (fun later listed => unsigned later (List.mem_cons_of_mem _ listed)) others
      rw [SizePlan.bytes_cons, own, further, CodecPlan.bytes, CodecPlan.bytes, List.map_cons,
        List.map_cons, List.sum_cons, Int.natCast_add]
      rfl

/-- **The size plan counts what the codec transfers.** A struct whose constant dimensions are
numerals has a size plan. Whatever the lengths and the sizes of the elements are, the bytes that the
plan counts are those that the steps of the encoder transfer, if the members that are multiplied out
are unsigned. -/
theorem sizePlan_bytes_eq_codec_bytes {struct : Struct}
    (converts : ∀ member ∈ struct.members, ∀ dimension ∈ member.dimensions,
      dimension.isConstant = true → ∃ extent, dimension.extent = .ok extent)
    (unsigned : ∀ member ∈ struct.members, member.type.width?.isSome = true →
      member.dimensions.all (·.isConstant) = true → member.Unsigned) :
    ∃ plan, SizePlan.ofStruct struct = .ok plan ∧
      ∀ (lengths : String → Nat) (bytes : Member → List Nat → Nat),
        plan.bytes lengths bytes =
          ((CodecPlan.ofStruct .encode struct).bytes lengths bytes : Nat) := by
  obtain ⟨terms, planned⟩ := Outcome.exists_mapM_eq_ok fun member listed =>
    exists_sizeTerm (converts member listed)
  refine ⟨⟨terms⟩, Outcome.bind_eq_ok.mpr ⟨terms, planned, rfl⟩, ?_⟩
  intro lengths bytes
  exact sizePlan_bytes_of_mapM lengths bytes unsigned planned

/-- In a grid of tags and of three rows of points, 16 bytes are known beforehand. With two points in
each row, whose sizes grow with their indices, the plan counts 43 bytes, and the codec transfers
them. -/
theorem sizePlan_bytes_eq_codec_bytes_grid :
    ∃ schema struct plan,
      Schema.ofTexts ["struct grid \x7b int32_t n; int16_t tags[2][3]; point cells[3][n]; \x7d",
        "struct point \x7b byte xyz[3]; \x7d"] = .ok schema ∧
      struct ∈ schema.structs ∧ SizePlan.ofStruct struct = .ok plan ∧ plan.constantBytes = 16 ∧
      plan.bytes (fun _ => 2) (fun _ index => 3 + index.sum) =
        ((CodecPlan.ofStruct .encode struct).bytes (fun _ => 2)
          (fun _ index => 3 + index.sum) : Nat) ∧
      (CodecPlan.ofStruct .encode struct).bytes (fun _ => 2)
        (fun _ index => 3 + index.sum) = 43 := by
  let grid : Struct := ⟨"grid", [⟨"n", .primitive .int32, []⟩,
    ⟨"tags", .primitive .int16, [.constant "2", .constant "3"]⟩,
    ⟨"cells", .compound "point", [.constant "3", .dynamic "n"]⟩], 17986226055374884024⟩
  let schema : Schema := ⟨[grid,
    ⟨"point", [⟨"xyz", .primitive .byte, [.constant "3"]⟩], 14638498053597885828⟩]⟩
  have read : Schema.ofTexts
      ["struct grid \x7b int32_t n; int16_t tags[2][3]; point cells[3][n]; \x7d",
        "struct point \x7b byte xyz[3]; \x7d"] = .ok schema := by decide +kernel
  have converts : ∀ member ∈ grid.members, ∀ dimension ∈ member.dimensions,
      dimension.isConstant = true → dimension.extent.isOk = true := by decide +kernel
  have known := Schema.readFrom_of_ofTexts read grid List.mem_cons_self
  obtain ⟨plan, planned, same⟩ := sizePlan_bytes_eq_codec_bytes
    (fun member listed dimension present constant =>
      Outcome.exists_of_isOk (converts member listed dimension present constant))
    (fun member listed _ constant => (known.members member listed).unsigned constant)
  have beforehand : (SizePlan.ofStruct grid).map SizePlan.constantBytes = .ok 16 := by
    decide +kernel
  rw [planned] at beforehand
  exact ⟨schema, grid, plan, read, List.mem_cons_self, planned, Except.ok.inj beforehand, same _ _,
    by decide +kernel⟩

/-- A member with a negative extent would be counted with a negative size, while nothing is
transferred for it. -/
theorem sizePlan_bytes_of_negative_extent :
    ∃ (struct : Struct) (plan : SizePlan),
      struct.members = [⟨"x", .primitive .int32, [.constant "-3"]⟩] ∧
      (∀ member ∈ struct.members, ∀ dimension ∈ member.dimensions,
        dimension.isConstant = true → ∃ extent, dimension.extent = .ok extent) ∧
      SizePlan.ofStruct struct = .ok plan ∧
      plan.bytes (fun _ => 0) (fun _ _ => 0) = -12 ∧
      (CodecPlan.ofStruct .encode struct).bytes (fun _ => 0) (fun _ _ => 0) = 0 := by
  let member : Member := ⟨"x", .primitive .int32, [.constant "-3"]⟩
  refine ⟨⟨"a", [member], 0⟩, ⟨[.constant member 4 [-3]]⟩, rfl, ?_, by decide +kernel,
    by decide +kernel, by decide +kernel⟩
  have converts : ∀ member' ∈ [member], ∀ dimension ∈ member'.dimensions,
      dimension.isConstant = true → dimension.extent.isOk = true := by decide +kernel
  intro member' listed dimension present constant
  exact Outcome.exists_of_isOk (converts member' listed dimension present constant)

end Wireform
