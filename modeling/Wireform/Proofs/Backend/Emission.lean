import Wireform.Backend.MatlabFiles
import Wireform.Backend.PythonModule
import Wireform.Proofs.Plan.SizeAgreement
import Wireform.Proofs.Schema.Validity
import Wireform.Proofs.Text.Numerals

/-! # Schemas that can be rendered

A backend reads each constant extent of a struct as a number and writes it again, and writes the
bytes of the struct that are known beforehand. Where all of these are numerals
(`Wireform.Struct.IsRenderable`), nothing stops the backends on a valid schema: the MATLAB files are
there (`Wireform.Backend.exists_matlabFiles`), and so is the Python module, unless a name is refused
(`Wireform.Backend.name_of_pythonModule`).
-/

namespace Wireform

/-! ### Extents -/

/-- A dimension that is dynamic, or a row of decimal digits that is not too long. -/
def Dimension.IsReadable (dimension : Dimension) : Prop :=
  dimension.isConstant = true →
    (∀ c ∈ dimension.size.toList, Text.isDecimal c = true) ∧
      dimension.size.length ≤ Numeral.digitLimit

/-- A dimension that is dynamic, or has an extent that can be written. -/
def Dimension.IsShown (dimension : Dimension) : Prop :=
  dimension.isConstant = true →
    ∃ value, dimension.extent = .ok value ∧ ∃ text, Numeral.write value = .ok text

/-- A dimension that was written and can be converted can be shown again. -/
theorem Dimension.IsReadable.isShown {dimension : Dimension} (readable : dimension.IsReadable)
    (written : dimension.Written) : dimension.IsShown := by
  intro constant
  obtain ⟨decimal, short⟩ := readable constant
  cases written with
  | dynamic name => cases constant
  | @constant size digits =>
      have occupied : size.toList ≠ [] := by
        rintro empty
        rw [Parser.isConstantSize, empty] at digits
        cases digits
      obtain ⟨value, read, small⟩ := Numeral.read_of_isDecimal occupied decimal short
      exact ⟨value, read, _, Numeral.write_of_lt small⟩

/-- A struct whose numbers can be written. -/
structure Struct.IsRenderable (struct : Struct) : Prop where
  extents : ∀ member ∈ struct.members, ∀ dimension ∈ member.dimensions, dimension.IsShown
  bytes : ∀ plan, SizePlan.ofStruct struct = .ok plan →
    ∃ text, Numeral.write plan.constantBytes = .ok text

/-- A struct whose extents are rows of decimal digits, and whose size is no number of too many
digits. -/
structure Struct.IsMeasured (struct : Struct) : Prop where
  extents : ∀ member ∈ struct.members, ∀ dimension ∈ member.dimensions, dimension.IsReadable
  bytes : ∀ plan, SizePlan.ofStruct struct = .ok plan →
    plan.constantBytes.natAbs < 10 ^ Numeral.digitLimit

/-- A struct that was read can be rendered once it can be measured. -/
theorem Struct.IsMeasured.isRenderable {struct : Struct} (measured : struct.IsMeasured)
    (read : struct.ReadFrom Source.Dotted) : struct.IsRenderable where
  extents member listed dimension present :=
    (measured.extents member listed dimension present).isShown
      ((read.members member listed).dimensions dimension present)
  bytes plan sized := ⟨_, Numeral.write_of_lt (measured.bytes plan sized)⟩

/-! ### Plans -/

private theorem Struct.IsRenderable.exists_sizePlan {struct : Struct}
    (renderable : struct.IsRenderable) :
    ∃ plan, SizePlan.ofStruct struct = .ok plan := by
  have terms : ∃ terms, struct.members.mapM SizeTerm.ofMember = .ok terms := by
    refine Outcome.exists_mapM_eq_ok fun member listed => exists_sizeTerm ?_
    intro dimension present constant
    obtain ⟨value, read, -⟩ := renderable.extents member listed dimension present constant
    exact ⟨value, read⟩
  exact Outcome.exists_bind_eq_ok terms fun found => ⟨⟨found⟩, rfl⟩

namespace Schema

variable {schema : Schema}

/-- The structs of a valid schema have fingerprints. -/
theorem exists_fingerprint (valid : schema.validate = .ok ()) {struct : Struct}
    (listed : struct ∈ schema.structs) (cache : FingerprintCache) :
    ∃ word after, cache.fingerprint schema struct = (.ok word, after) := by
  obtain ⟨word, hashed⟩ := exists_structuralHash (closed_of_validate valid) listed []
  unfold FingerprintCache.fingerprint
  cases cache.lookup struct.name with
  | none =>
      rw [hashed]
      exact ⟨_, _, rfl⟩
  | some known => exact ⟨_, _, rfl⟩

/-- Structs of a valid schema have plans where they have sizes. -/
theorem exists_plansOf (valid : schema.validate = .ok ()) {structs : List Struct}
    (listed : structs ⊆ schema.structs)
    (sized : ∀ struct ∈ structs, ∃ size, SizePlan.ofStruct struct = .ok size)
    (cache : FingerprintCache) :
    ∃ plans after, schema.plansOf structs cache = (.ok plans, after) := by
  induction structs generalizing cache with
  | nil => exact ⟨[], cache, rfl⟩
  | cons struct structs ih =>
      obtain ⟨here, later⟩ := List.cons_subset.mp listed
      obtain ⟨size, known⟩ := sized struct List.mem_cons_self
      obtain ⟨word, between, answered⟩ := exists_fingerprint valid here cache
      have built : ∃ plan, TypePlan.build schema struct cache = (.ok plan, between) := by
        unfold TypePlan.build
        rw [answered]
        simp only [known]
        exact ⟨_, rfl⟩
      obtain ⟨plan, built⟩ := built
      obtain ⟨plans, after, rest⟩ :=
        ih later (fun other member => sized other (List.mem_cons_of_mem _ member)) between
      exact ⟨plan :: plans, after, by rw [plansOf, built]; simp only [rest]⟩

end Schema

namespace Backend

/-! ### Extents and loops -/

/-- The text of an extent is there exactly if the extent can be written. Both backends spell extents
in the same way. -/
theorem exists_extentText_iff (owner : String) {dimension : Dimension} :
    (∃ text, extentText owner dimension = .ok text) ↔ dimension.IsShown := by
  unfold extentText Dimension.IsShown
  split
  · next constant =>
      rw [Outcome.exists_bind_iff]
      exact (imp_iff_right constant).symm
  · next dynamic => exact iff_of_true ⟨_, rfl⟩ fun constant => absurd constant dynamic

private theorem exists_checkedLoops_iff (owner member : String) (fail : Line) (body : List Line)
    (level : Nat) {dimensions : List Dimension} :
    (∃ lines, checkedLoops owner member fail body level dimensions = .ok lines) ↔
      ∀ dimension ∈ dimensions, dimension.IsShown := by
  induction dimensions generalizing level with
  | nil => exact iff_of_true ⟨body, rfl⟩ (List.forall_mem_nil _)
  | cons dimension rest ih =>
      rw [List.forall_mem_cons, ← exists_extentText_iff owner, ← ih (level + 1)]
      exact Outcome.exists_both_iff

private theorem exists_fillingLoops_iff (owner : String) (body : List Line) (value : String)
    (level : Nat)
    {dimensions : List Dimension} :
    (∃ lines, fillingLoops owner body value level dimensions = .ok lines) ↔
      ∀ dimension ∈ dimensions, dimension.IsShown := by
  induction dimensions generalizing level with
  | nil => exact iff_of_true ⟨body, rfl⟩ (List.forall_mem_nil _)
  | cons dimension rest ih =>
      cases rest with
      | nil =>
          rw [List.forall_mem_singleton, ← exists_extentText_iff owner]
          exact Outcome.exists_returning_iff
      | cons next rest =>
          rw [List.forall_mem_cons, ← exists_extentText_iff owner, ← ih (level + 1)]
          exact Outcome.exists_both_iff

private theorem exists_countedLoops_iff (owner : String) (body : List Line) (level : Nat)
    {dimensions : List Dimension} :
    (∃ lines, countedLoops owner body level dimensions = .ok lines) ↔
      ∀ dimension ∈ dimensions, dimension.IsShown := by
  induction dimensions generalizing level with
  | nil => exact iff_of_true ⟨body, rfl⟩ (List.forall_mem_nil _)
  | cons dimension rest ih =>
      rw [List.forall_mem_cons, ← exists_extentText_iff owner, ← ih (level + 1)]
      exact Outcome.exists_both_iff

/-! ### Steps -/

/-- Every primitive has a packer, except that of strings, for which none is looked up. -/
theorem exists_packer {p : Primitive} (packed : p ≠ .string) : ∃ name, packer p = .ok name := by
  cases p <;> first | exact absurd rfl packed | exact ⟨_, rfl⟩

/-- Every type has a call that encodes its values. -/
theorem exists_encodeCall (type : FieldType) (value : String) :
    ∃ call, encodeCall type value = .ok call := by
  unfold encodeCall
  split
  · exact ⟨_, rfl⟩
  · next packed => exact Outcome.exists_returning_iff.mpr (exists_packer packed)
  · exact ⟨_, rfl⟩

/-- Every type has a call that decodes its values. -/
theorem exists_decodeCall (type : FieldType) : ∃ call, decodeCall type = .ok call := by
  unfold decodeCall
  split
  · exact ⟨_, rfl⟩
  · next packed => exact Outcome.exists_returning_iff.mpr (exists_packer packed)
  · exact ⟨_, rfl⟩

/-- A step whose extents can be written. -/
def IsShownStep (step : FieldStep) : Prop := ∀ dimension ∈ step.loops, dimension.IsShown

section Steps

variable {step : FieldStep}

/-- A member is encoded exactly where its extents can be written. -/
theorem exists_encodeStep_iff : (∃ lines, encodeStep step = .ok lines) ↔ IsShownStep step := by
  obtain ⟨call, called⟩ :=
    exists_encodeCall step.member.type (elementText "msg" step.member.name step.loops.length)
  unfold encodeStep
  rw [called]
  exact Outcome.exists_returning_iff.trans
    (Outcome.exists_mapError_iff.trans (exists_checkedLoops_iff ..))

private theorem exists_decodeStep_iff :
    (∃ lines, decodeStep step = .ok lines) ↔ IsShownStep step := by
  obtain ⟨call, called⟩ := exists_decodeCall step.member.type
  unfold decodeStep
  rw [called]
  change (∃ lines, (if step.loops.isEmpty = true then _ else _) = Except.ok lines) ↔ _
  split
  · next scalar =>
      rw [IsShownStep, List.isEmpty_iff.mp scalar]
      exact iff_of_true ⟨_, rfl⟩ (List.forall_mem_nil _)
  · exact Outcome.exists_returning_iff.trans
      (Outcome.exists_mapError_iff.trans (exists_fillingLoops_iff ..))

/-- So it is for the functions of a struct. -/
theorem exists_matlabEncodeStep_iff :
    (∃ lines, matlabEncodeStep step = .ok lines) ↔ IsShownStep step :=
  Outcome.exists_returning_iff.trans (exists_countedLoops_iff ..)

private theorem exists_matlabDecodeStep_iff :
    (∃ lines, matlabDecodeStep step = .ok lines) ↔ IsShownStep step :=
  Outcome.exists_returning_iff.trans (exists_countedLoops_iff ..)

end Steps

/-! ### The plans of renderable structs -/

variable {plan : TypePlan}

private theorem isShownStep_of_steps (renderable : plan.struct.IsRenderable)
    (direction : Direction) :
    ∀ step ∈ (CodecPlan.ofStruct direction plan.struct).steps, IsShownStep step := by
  intro step member
  obtain ⟨owner, listed, rfl⟩ := List.mem_map.mp member
  exact renderable.extents owner listed

private theorem isShown_of_elementTerms (ofStruct : plan.OfStruct)
    (renderable : plan.struct.IsRenderable) :
    ∀ term ∈ plan.size.elementTerms, ∃ member loops width,
      term = .perElement member loops width ∧ ∀ dimension ∈ loops, dimension.IsShown := by
  intro term member
  obtain ⟨present, element⟩ := List.mem_filter.mp member
  obtain ⟨owner, listed, found⟩ := SizePlan.exists_of_mem_ofStruct ofStruct.size present
  rcases SizeTerm.ofMember_eq_ok found with ⟨width, extents, -, -, -, rfl⟩ | ⟨rfl, -⟩
  · cases element
  · exact ⟨owner, owner.dimensions, _, rfl, renderable.extents owner listed⟩

/-! ### Python -/

private theorem exists_defaultValue (type : FieldType) {dimensions : List Dimension}
    (shown : ∀ dimension ∈ dimensions, dimension.IsShown) :
    ∃ text, defaultValue type dimensions = .ok text := by
  induction dimensions with
  | nil => exact ⟨_, rfl⟩
  | cons dimension rest ih =>
      obtain ⟨here, later⟩ := List.forall_mem_cons.mp shown
      unfold defaultValue
      split
      · next constant =>
          obtain ⟨value, read, text, written⟩ := here constant
          refine Outcome.exists_bind_eq_ok (ih later) fun inner => ?_
          exact ⟨_, Outcome.bind_eq_ok.mpr ⟨value, read,
            Outcome.bind_eq_ok.mpr ⟨text, written, rfl⟩⟩⟩
      · exact ⟨_, rfl⟩

private theorem exists_sizeMethods (ofStruct : plan.OfStruct)
    (renderable : plan.struct.IsRenderable) :
    ∃ lines, sizeMethods plan = .ok lines := by
  have start : ∃ line, sizeStart plan.size = .ok line := by
    unfold sizeStart
    simp only
    split
    · exact ⟨_, rfl⟩
    · exact Outcome.exists_bind_eq_ok (renderable.bytes plan.size ofStruct.size) fun _ => ⟨_, rfl⟩
  have steps : ∃ lines, plan.size.elementTerms.mapM (sizeStep plan.struct.name) = .ok lines := by
    refine Outcome.exists_mapM_eq_ok fun term member => ?_
    obtain ⟨owner, loops, width, rfl, shown⟩ :=
      isShown_of_elementTerms ofStruct renderable term member
    exact (exists_checkedLoops_iff ..).mpr shown
  exact Outcome.exists_bind_eq_ok start fun _ => Outcome.exists_bind_eq_ok steps fun _ => ⟨_, rfl⟩

private theorem exists_classLines (ofStruct : plan.OfStruct)
    (renderable : plan.struct.IsRenderable) :
    ∃ lines, classLines plan = .ok lines := by
  have init : ∃ lines, initMethod plan.struct = .ok lines := by
    refine Outcome.exists_bind_eq_ok (Outcome.exists_mapM_eq_ok fun member listed => ?_)
      fun _ => ⟨_, rfl⟩
    exact Outcome.exists_bind_eq_ok
      (exists_defaultValue member.type (renderable.extents member listed)) fun _ => ⟨_, rfl⟩
  have encode : ∃ lines, encodeMethods plan = .ok lines := by
    refine Outcome.exists_bind_eq_ok (Outcome.exists_mapM_eq_ok fun step member => ?_)
      fun _ => ⟨_, rfl⟩
    rw [ofStruct.encode] at member
    exact exists_encodeStep_iff.mpr (isShownStep_of_steps renderable .encode step member)
  have decode : ∃ lines, decodeMethods plan = .ok lines := by
    refine Outcome.exists_bind_eq_ok (Outcome.exists_mapM_eq_ok fun step member => ?_)
      fun _ => ⟨_, rfl⟩
    rw [ofStruct.decode] at member
    exact exists_decodeStep_iff.mpr (isShownStep_of_steps renderable .decode step member)
  refine Outcome.exists_bind_eq_ok (Outcome.exists_mapError_iff.mpr init) fun _ => ?_
  refine Outcome.exists_bind_eq_ok
    (Outcome.exists_mapError_iff.mpr (exists_sizeMethods ofStruct renderable)) fun _ => ?_
  exact Outcome.exists_bind_eq_ok encode fun _ => Outcome.exists_bind_eq_ok decode fun _ => ⟨_, rfl⟩

private theorem exists_moduleLines (source : Option String) {plans : List TypePlan}
    (ofStruct : ∀ plan ∈ plans, plan.OfStruct)
    (renderable : ∀ plan ∈ plans, plan.struct.IsRenderable) :
    ∃ lines, moduleLines source plans = .ok lines := by
  refine Outcome.exists_bind_eq_ok (Outcome.exists_mapM_eq_ok fun plan member => ?_)
    fun _ => ⟨_, rfl⟩
  exact exists_classLines (ofStruct plan member) (renderable plan member)

/-! ### MATLAB -/

private theorem exists_structFiles (ofStruct : plan.OfStruct)
    (renderable : plan.struct.IsRenderable) :
    ∃ files, structFiles plan = .ok files := by
  have encode : ∃ text, encodeMembersFile (matlabName plan.struct.name) plan = .ok text := by
    refine Outcome.exists_bind_eq_ok (Outcome.exists_mapM_eq_ok fun step member => ?_)
      fun _ => ⟨_, rfl⟩
    rw [ofStruct.encode] at member
    exact exists_matlabEncodeStep_iff.mpr (isShownStep_of_steps renderable .encode step member)
  have decode : ∃ text, decodeMembersFile (matlabName plan.struct.name) plan = .ok text := by
    refine Outcome.exists_bind_eq_ok (Outcome.exists_mapM_eq_ok fun step member => ?_)
      fun _ => ⟨_, rfl⟩
    rw [ofStruct.decode] at member
    exact exists_matlabDecodeStep_iff.mpr (isShownStep_of_steps renderable .decode step member)
  have size : ∃ text, sizeMembersFile (matlabName plan.struct.name) plan = .ok text := by
    refine Outcome.exists_bind_eq_ok (renderable.bytes plan.size ofStruct.size) fun _ => ?_
    refine Outcome.exists_bind_eq_ok (Outcome.exists_mapM_eq_ok fun term member => ?_)
      fun _ => ⟨_, rfl⟩
    obtain ⟨owner, loops, width, rfl, shown⟩ :=
      isShown_of_elementTerms ofStruct renderable term member
    exact (exists_countedLoops_iff ..).mpr shown
  refine Outcome.exists_bind_eq_ok encode fun _ => Outcome.exists_bind_eq_ok decode fun _ => ?_
  exact Outcome.exists_bind_eq_ok size fun _ => ⟨_, rfl⟩

/-! ### Schemas -/

variable {schema : Schema}

/-- The plans of a renderable schema are there, each of a renderable struct. -/
theorem exists_plans (valid : schema.validate = .ok ())
    (renderable : ∀ struct ∈ schema.structs, struct.IsRenderable) (cache : FingerprintCache) :
    ∃ plans after, schema.plans cache = (.ok plans, after) ∧ (∀ plan ∈ plans, plan.OfStruct) ∧
      ∀ plan ∈ plans, plan.struct.IsRenderable := by
  obtain ⟨plans, after, planned⟩ :=
    Schema.exists_plansOf valid (List.Subset.refl schema.structs)
      (fun struct listed => (renderable struct listed).exists_sizePlan) cache
  refine ⟨plans, after, planned, Schema.ofStruct_of_plans planned, fun plan member => ?_⟩
  exact renderable plan.struct (Schema.struct_of_plans planned ▸ List.mem_map_of_mem member)

/-- **The MATLAB files of a renderable schema are there.** -/
theorem exists_matlabFiles (valid : schema.validate = .ok ())
    (renderable : ∀ struct ∈ schema.structs, struct.IsRenderable) (cache : FingerprintCache) :
    ∃ files, (matlabFiles schema cache).1 = .ok files := by
  obtain ⟨plans, after, planned, ofStruct, rendered⟩ := exists_plans valid renderable cache
  obtain ⟨parts, made⟩ := Outcome.exists_mapM_eq_ok fun plan member =>
    exists_structFiles (ofStruct plan member) (rendered plan member)
  exact ⟨Pairs.setAll [] parts.flatten, by simp only [matlabFiles, planned, made]⟩

/-- **The Python module of a renderable schema is there**, unless a name is refused. -/
theorem name_of_pythonModule (valid : schema.validate = .ok ())
    (renderable : ∀ struct ∈ schema.structs, struct.IsRenderable) (source : Option String)
    (cache : FingerprintCache) {fault : ModuleFault}
    (failed : (pythonModule schema source cache).1 = .error fault) :
    ∃ name, fault = .name name := by
  obtain ⟨plans, after, planned, ofStruct, rendered⟩ := exists_plans valid renderable cache
  obtain ⟨lines, made⟩ := exists_moduleLines source ofStruct rendered
  unfold pythonModule at failed
  split at failed
  · next name refused => exact ⟨name, (Except.error.inj failed).symm⟩
  · simp only [planned, made] at failed
    cases failed

end Backend

end Wireform
