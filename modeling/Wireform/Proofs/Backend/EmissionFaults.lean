import Wireform.Proofs.Backend.Emission
import Wireform.Proofs.Backend.Writers

/-! # When rendering fails

Rendering a valid schema fails on numbers alone, and on the names that a Python module cannot bear.
Each backend reads every constant extent of a struct, in the loops of its codecs at the latest, so
whatever was rendered has extents that can be written
(`Wireform.Backend.isRenderable_of_structFiles`, `Wireform.Backend.isShown_of_classLines`). An
extent that was read from a file can be written exactly if it is a row of decimal digits and not too
long (`Wireform.Dimension.isShown_iff`). Planning reads fewer extents: those of the members whose
size it multiplies out (`Wireform.Schema.exists_plans_iff`). No type of a valid schema is missed.
-/

namespace Wireform

/-! ### Extents -/

private theorem Dimension.isReadable_of_extent {dimension : Dimension} (written : dimension.Written)
    {value : Int} (read : dimension.extent = .ok value) : dimension.IsReadable := by
  intro constant
  cases written with
  | dynamic name => cases constant
  | @constant size digits =>
      have each : size.toList.all Text.isDigit = true := (Bool.and_eq_true_iff.mp digits).2
      exact Numeral.isDecimal_of_read (List.all_eq_true.mp each) read

/-- An extent that was read from a file can be written exactly if it is readable. -/
theorem Dimension.isShown_iff {dimension : Dimension} (written : dimension.Written) :
    dimension.IsShown ↔ dimension.IsReadable := by
  refine ⟨fun shown constant => ?_, fun readable => readable.isShown written⟩
  obtain ⟨value, read, -⟩ := shown constant
  exact Dimension.isReadable_of_extent written read constant

/-- A struct that was read from a file can be rendered exactly if it is measured. -/
theorem Struct.isRenderable_iff {struct : Struct} (read : struct.ReadFrom Source.Dotted) :
    struct.IsRenderable ↔ struct.IsMeasured := by
  refine ⟨fun renderable => ⟨?_, ?_⟩, fun measured => measured.isRenderable read⟩
  · intro member listed dimension present
    have written := (read.members member listed).dimensions dimension present
    exact (Dimension.isShown_iff written).mp (renderable.extents member listed dimension present)
  · intro plan sized
    obtain ⟨text, written⟩ := renderable.bytes plan sized
    exact Numeral.lt_of_write written

/-! ### Plans -/

/-- A member whose size is multiplied out: its elements have a fixed width, and all its dimensions
are constant. -/
structure Member.IsFolded (member : Member) : Prop where
  fixed : member.type.width?.isSome = true
  constant : ∀ dimension ∈ member.dimensions, dimension.isConstant = true

/-- The term of a member is there exactly if no extent stops the product. -/
theorem SizeTerm.exists_ofMember_iff {member : Member}
    (written : ∀ dimension ∈ member.dimensions, dimension.Written) :
    (∃ term, SizeTerm.ofMember member = .ok term) ↔
      (member.IsFolded → ∀ dimension ∈ member.dimensions, dimension.IsReadable) := by
  constructor
  · rintro ⟨term, found⟩ folded dimension present
    rcases SizeTerm.ofMember_eq_ok found with ⟨width, extents, -, -, read, -⟩ | ⟨-, varies⟩
    · obtain ⟨extent, -, own⟩ := Outcome.mem_of_mapM read present
      exact Dimension.isReadable_of_extent (written dimension present) own
    · rcases varies with none | dynamic
      · exact absurd folded.fixed (by rw [none]; exact Bool.false_ne_true)
      · exact absurd (List.all_eq_true.mpr folded.constant) (Bool.eq_false_iff.mp dynamic)
  · intro readable
    unfold SizeTerm.ofMember
    split
    · next width fixed =>
        split
        · next constant =>
            have each := List.all_eq_true.mp constant
            have folded : member.IsFolded := ⟨by rw [fixed]; rfl, each⟩
            have read : ∃ extents, member.dimensions.mapM Dimension.extent = .ok extents := by
              refine Outcome.exists_mapM_eq_ok fun dimension present => ?_
              have shown := (readable folded dimension present).isShown (written dimension present)
              obtain ⟨value, own, -⟩ := shown (each dimension present)
              exact ⟨value, own⟩
            exact Outcome.exists_bind_eq_ok read fun _ => ⟨_, rfl⟩
        · exact ⟨_, rfl⟩
    · exact ⟨_, rfl⟩

/-- A struct whose size can be planned: no extent stops a product. -/
def Struct.IsPlanned (struct : Struct) : Prop :=
  ∀ member ∈ struct.members, member.IsFolded →
    ∀ dimension ∈ member.dimensions, dimension.IsReadable

private theorem SizePlan.exists_ofStruct_iff {struct : Struct}
    (read : struct.ReadFrom Source.Dotted) :
    (∃ plan, SizePlan.ofStruct struct = .ok plan) ↔ struct.IsPlanned := by
  have terms : (∃ plan, SizePlan.ofStruct struct = .ok plan) ↔
      ∃ terms, struct.members.mapM SizeTerm.ofMember = .ok terms := by
    constructor
    · rintro ⟨plan, planned⟩
      obtain ⟨terms, found, -⟩ := Outcome.bind_eq_ok.mp planned
      exact ⟨terms, found⟩
    · exact fun found => Outcome.exists_bind_eq_ok found fun _ => ⟨_, rfl⟩
  rw [terms, Outcome.exists_mapM_eq_ok_iff]
  exact forall₂_congr fun member listed =>
    SizeTerm.exists_ofMember_iff (read.members member listed).dimensions

/-- A fault of a number. -/
def PlanFault.IsNumeral (fault : PlanFault) : Prop := ∃ numeral, fault = .numeral numeral

namespace Schema

/-- A schema with an extent that is not readable. -/
def HasUnreadable (schema : Schema) : Prop :=
  ∃ struct ∈ schema.structs, ∃ member ∈ struct.members, ∃ dimension ∈ member.dimensions,
    ¬ dimension.IsReadable

variable {schema : Schema} {cache : FingerprintCache}

/-- Only numbers stop the planning of structs of a valid schema. -/
theorem numeral_of_plansOf (valid : schema.validate = .ok ()) {structs : List Struct}
    (listed : structs ⊆ schema.structs) {fault : PlanFault}
    (failed : (schema.plansOf structs cache).1 = .error fault) :
    ∃ numeral, fault = .numeral numeral := by
  induction structs generalizing cache with
  | nil => cases failed
  | cons struct structs ih =>
      obtain ⟨here, later⟩ := List.cons_subset.mp listed
      obtain ⟨word, between, answered⟩ := exists_fingerprint valid here cache
      cases sized : SizePlan.ofStruct struct with
      | error numeral =>
          have built : TypePlan.build schema struct cache =
            (.error (.numeral numeral), between) := by
            simp only [TypePlan.build, answered, sized]
          rw [plansOf, built] at failed
          exact ⟨numeral, (Except.error.inj failed).symm⟩
      | ok size =>
          unfold plansOf TypePlan.build at failed
          rw [answered] at failed
          simp only [sized] at failed
          split at failed
          · next rest after run =>
              obtain rfl := Except.error.inj failed
              exact ih later (congrArg Prod.fst run)
          · cases failed

private theorem numeral_of_plans (valid : schema.validate = .ok ()) {fault : PlanFault}
    (failed : (schema.plans cache).1 = .error fault) : ∃ numeral, fault = .numeral numeral :=
  numeral_of_plansOf valid (List.Subset.refl _) failed

/-- **What planning needs.** The plans of a schema that was read from files are there exactly if no
extent stops a product. -/
theorem exists_plans_iff {texts : List String} (read : Schema.ofTexts texts = .ok schema) :
    (∃ plans, (schema.plans cache).1 = .ok plans) ↔
      ∀ struct ∈ schema.structs, struct.IsPlanned := by
  have valid := (Schema.ofTexts_eq_ok_iff.mp read).2
  have fields := Schema.readFrom_of_ofTexts read
  constructor
  · rintro ⟨plans, made⟩ struct listed
    have planned : schema.plans cache = (.ok plans, (schema.plans cache).2) := Prod.ext made rfl
    rw [← Schema.struct_of_plans planned] at listed
    obtain ⟨plan, present, rfl⟩ := List.mem_map.mp listed
    have sized := (Schema.ofStruct_of_plans planned plan present).size
    rw [Schema.struct_of_plans planned] at listed
    exact (SizePlan.exists_ofStruct_iff (fields _ listed)).mp ⟨_, sized⟩
  · intro planned
    obtain ⟨plans, after, run⟩ := exists_plansOf valid (List.Subset.refl schema.structs)
      (fun struct listed =>
        (SizePlan.exists_ofStruct_iff (fields struct listed)).mpr (planned struct listed)) cache
    exact ⟨plans, congrArg Prod.fst run⟩

end Schema

namespace Backend

/-! ### What was rendered can be written -/

/-- Where the steps of a struct were rendered, each after its loops, its extents can be written. -/
theorem isShown_of_steps {Fault : Type} {write : FieldStep → Except Fault (List Line)}
    (each : ∀ step, (∃ lines, write step = .ok lines) → IsShownStep step) {direction : Direction}
    {struct : Struct} {steps : List (List Line)}
    (written : (CodecPlan.ofStruct direction struct).steps.mapM write = .ok steps) :
    ∀ member ∈ struct.members, ∀ dimension ∈ member.dimensions, dimension.IsShown := by
  intro member listed
  obtain ⟨lines, -, own⟩ := Outcome.mem_of_mapM written
    (List.mem_map_of_mem (f := FieldStep.ofMember) listed)
  exact each _ ⟨lines, own⟩

private theorem isShown_of_classLines {plan : TypePlan} (ofStruct : plan.OfStruct)
    {lines : List Line}
    (written : classLines plan = .ok lines) :
    ∀ member ∈ plan.struct.members, ∀ dimension ∈ member.dimensions, dimension.IsShown := by
  obtain ⟨-, -, encode, -, -, -, encodeWritten, -⟩ := classLines_eq_ok written
  obtain ⟨steps, stepsWritten, -⟩ := Outcome.bind_eq_ok.mp encodeWritten
  rw [ofStruct.encode] at stepsWritten
  exact isShown_of_steps (fun _ => exists_encodeStep_iff.mp) stepsWritten

/-- A struct whose files were rendered can be rendered: the files show all its numbers. -/
theorem isRenderable_of_structFiles {plan : TypePlan} (ofStruct : plan.OfStruct)
    {files : List (String × String)} (written : structFiles plan = .ok files) :
    plan.struct.IsRenderable := by
  obtain ⟨encode, decode, size, encodeWritten, -, sizeWritten, -⟩ := structFiles_parts written
  constructor
  · obtain ⟨steps, stepsWritten, -⟩ := Outcome.bind_eq_ok.mp encodeWritten
    rw [ofStruct.encode] at stepsWritten
    exact isShown_of_steps (fun _ => exists_matlabEncodeStep_iff.mp) stepsWritten
  · intro found sized
    obtain rfl := Except.ok.inj (sized.symm.trans ofStruct.size)
    obtain ⟨bytes, bytesWritten, -⟩ := Outcome.bind_eq_ok.mp sizeWritten
    exact ⟨bytes, bytesWritten⟩

/-! ### Only numbers stop the lines of a module -/

section Numbers

private theorem failsWithin_mapError {α : Type} (run : Except Numeral.Fault α) :
    Outcome.FailsWithin PlanFault.IsNumeral (run.mapError .numeral) := by
  intro fault failed
  obtain ⟨numeral, -, rfl⟩ := Outcome.mapError_eq_error.mp failed
  exact ⟨numeral, rfl⟩

/-- A member is written or a number stops it: its packer is not missed. -/
theorem failsWithin_encodeStep (step : FieldStep) :
    Outcome.FailsWithin PlanFault.IsNumeral (encodeStep step) :=
  (Outcome.failsWithin_of_exists (exists_encodeCall ..)).bind fun _ _ =>
    (failsWithin_mapError _).returning _

/-- A member is read or a number stops it: its packer is not missed. -/
theorem failsWithin_decodeStep (step : FieldStep) :
    Outcome.FailsWithin PlanFault.IsNumeral (decodeStep step) := by
  refine (Outcome.failsWithin_of_exists (exists_decodeCall ..)).bind fun call _ => ?_
  change Outcome.FailsWithin _ (if step.loops.isEmpty = true then _ else _)
  split
  · exact Outcome.failsWithin_ok _
  · exact (failsWithin_mapError _).returning _

private theorem failsWithin_classLines (plan : TypePlan) :
    Outcome.FailsWithin PlanFault.IsNumeral (classLines plan) := by
  have encode := Outcome.failsWithin_mapM fun step (_ : step ∈ plan.encode.steps) =>
    failsWithin_encodeStep step
  have decode := Outcome.failsWithin_mapM fun step (_ : step ∈ plan.decode.steps) =>
    failsWithin_decodeStep step
  refine (failsWithin_mapError _).bind fun init _ => ?_
  refine (failsWithin_mapError _).bind fun size _ => ?_
  refine (encode.returning _).bind fun lines _ => ?_
  exact (decode.returning _).returning _

private theorem failsWithin_moduleLines (source : Option String) (plans : List TypePlan) :
    Outcome.FailsWithin PlanFault.IsNumeral (moduleLines source plans) :=
  (Outcome.failsWithin_mapM fun plan _ => failsWithin_classLines plan).returning _

end Numbers

/-! ### Schemas -/

section Schemas

variable {texts : List String} {schema : Schema} {source : Option String}
  {cache : FingerprintCache} (read : Schema.ofTexts texts = .ok schema)
include read

private theorem validate_of_ofTexts : schema.validate = .ok () :=
  (Schema.ofTexts_eq_ok_iff.mp read).2

/-- Only numbers stop the MATLAB files of a valid schema. -/
theorem numeral_of_matlabFiles {fault : PlanFault}
    (failed : (matlabFiles schema cache).1 = .error fault) :
    ∃ numeral, fault = .numeral numeral := by
  unfold matlabFiles at failed
  split at failed
  · next unplanned after run =>
      obtain rfl := Except.error.inj failed
      exact Schema.numeral_of_plans (validate_of_ofTexts read) (congrArg Prod.fst run)
  · split at failed
    · next numeral unmade => exact ⟨numeral, (Except.error.inj failed).symm⟩
    · cases failed

/-- **What the MATLAB files need.** The files of a schema that was read from files are there exactly
if all its structs are measured. -/
theorem exists_matlabFiles_iff :
    (∃ files, (matlabFiles schema cache).1 = .ok files) ↔
      ∀ struct ∈ schema.structs, struct.IsMeasured := by
  have fields := Schema.readFrom_of_ofTexts read
  constructor
  · rintro ⟨files, made⟩ struct listed
    obtain ⟨plans, after, parts, planned, written, rfl⟩ := matlabFiles_eq_ok made
    have structs := Schema.struct_of_plans planned
    rw [← structs] at listed
    obtain ⟨plan, present, rfl⟩ := List.mem_map.mp listed
    rw [structs] at listed
    obtain ⟨own, -, ownWritten⟩ := Outcome.mem_of_mapM written present
    exact (Struct.isRenderable_iff (fields _ listed)).mp
      (isRenderable_of_structFiles (Schema.ofStruct_of_plans planned plan present) ownWritten)
  · intro measured
    exact exists_matlabFiles (validate_of_ofTexts read)
      (fun struct listed => (measured struct listed).isRenderable (fields struct listed)) cache

/-- Numbers and names stop a Python module, the names first. -/
theorem pythonModule_eq_error {fault : ModuleFault}
    (failed : (pythonModule schema source cache).1 = .error fault) :
    (∃ name, checkNames [] schema.structs = .error name ∧ fault = .name name) ∨
      ∃ numeral, fault = .plan (.numeral numeral) := by
  unfold pythonModule at failed
  split at failed
  · next name refused => exact .inl ⟨name, refused, (Except.error.inj failed).symm⟩
  · split at failed
    · next unplanned after run =>
        obtain rfl := Except.error.inj failed
        obtain ⟨numeral, rfl⟩ :=
          Schema.numeral_of_plans (validate_of_ofTexts read) (congrArg Prod.fst run)
        exact .inr ⟨numeral, rfl⟩
    · split at failed
      · next unmade =>
          obtain ⟨numeral, rfl⟩ := failsWithin_moduleLines _ _ _ unmade
          exact .inr ⟨numeral, (Except.error.inj failed).symm⟩
      · cases failed

/-- A module shows all extents of the schema. -/
theorem isReadable_of_pythonModule {text : String}
    (written : (pythonModule schema source cache).1 = .ok text) :
    ∀ struct ∈ schema.structs, ∀ member ∈ struct.members, ∀ dimension ∈ member.dimensions,
      dimension.IsReadable := by
  intro struct listed
  obtain ⟨plans, after, lines, planned, made, -⟩ := pythonModule_eq_ok written
  obtain ⟨classes, classesWritten, -⟩ := Outcome.bind_eq_ok.mp made
  have structs := Schema.struct_of_plans planned
  have fields := Schema.readFrom_of_ofTexts read struct listed
  rw [← structs] at listed
  obtain ⟨plan, present, rfl⟩ := List.mem_map.mp listed
  obtain ⟨own, -, ownWritten⟩ := Outcome.mem_of_mapM classesWritten present
  have shown := isShown_of_classLines (Schema.ofStruct_of_plans planned plan present) ownWritten
  intro member declared dimension own
  exact (Dimension.isShown_iff ((fields.members member declared).dimensions dimension own)).mp
    (shown member declared dimension own)

/-- The outcome of a Python module whose numbers can all be written. -/
theorem pythonModule_of_measured (measured : ∀ struct ∈ schema.structs, struct.IsMeasured) :
    (∃ text, (pythonModule schema source cache).1 = .ok text) ∨
      ∃ name, checkNames [] schema.structs = .error name ∧
        (pythonModule schema source cache).1 = .error (.name name) := by
  have renderable (struct) (listed : struct ∈ schema.structs) :=
    (measured struct listed).isRenderable (Schema.readFrom_of_ofTexts read struct listed)
  cases outcome : (pythonModule schema source cache).1 with
  | ok text => exact .inl ⟨text, rfl⟩
  | error fault =>
      obtain ⟨name, rfl⟩ :=
        name_of_pythonModule (validate_of_ofTexts read) renderable source cache outcome
      rcases pythonModule_eq_error read outcome with ⟨same, refused, shown⟩ | ⟨numeral, other⟩
      · exact .inr ⟨same, refused, congrArg Except.error shown⟩
      · cases other

private theorem matlabFiles_of_hasUnreadable (unreadable : schema.HasUnreadable) :
    ∃ numeral, (matlabFiles schema cache).1 = .error (.numeral numeral) := by
  obtain ⟨struct, listed, member, declared, dimension, present, own⟩ := unreadable
  cases outcome : (matlabFiles schema cache).1 with
  | ok files =>
      have measured := (exists_matlabFiles_iff read).mp ⟨files, outcome⟩ struct listed
      exact absurd (measured.extents member declared dimension present) own
  | error fault =>
      obtain ⟨numeral, rfl⟩ := numeral_of_matlabFiles read outcome
      exact ⟨numeral, rfl⟩

private theorem pythonModule_of_hasUnreadable (unreadable : schema.HasUnreadable) :
    (∃ numeral, (pythonModule schema source cache).1 = .error (.plan (.numeral numeral))) ∨
      ∃ name, checkNames [] schema.structs = .error name ∧
        (pythonModule schema source cache).1 = .error (.name name) := by
  obtain ⟨struct, listed, member, declared, dimension, present, own⟩ := unreadable
  cases outcome : (pythonModule schema source cache).1 with
  | ok text =>
      have readable := isReadable_of_pythonModule read outcome struct listed
      exact absurd (readable member declared dimension present) own
  | error fault =>
      rcases pythonModule_eq_error read outcome with ⟨name, refused, rfl⟩ | ⟨numeral, rfl⟩
      · exact .inr ⟨name, refused, rfl⟩
      · exact .inl ⟨numeral, rfl⟩

/-- A number stops planning exactly where it stops a product. -/
theorem plans_eq_error_iff :
    (∃ numeral, (schema.plans cache).1 = .error (.numeral numeral)) ↔
      ∃ struct ∈ schema.structs, ∃ member ∈ struct.members, member.IsFolded ∧
        ∃ dimension ∈ member.dimensions, ¬ dimension.IsReadable := by
  have stopped : (¬ ∃ plans, (schema.plans cache).1 = .ok plans) ↔ _ :=
    not_congr (Schema.exists_plans_iff read)
  constructor
  · rintro ⟨numeral, failed⟩
    have unplanned := stopped.mp fun ⟨plans, made⟩ => by
      rw [failed] at made
      cases made
    simpa [Struct.IsPlanned] using unplanned
  · rintro ⟨struct, listed, member, declared, folded, dimension, present, unreadable⟩
    have unplanned := stopped.mpr fun each =>
      unreadable (each struct listed member declared folded dimension present)
    cases outcome : (schema.plans cache).1 with
    | ok plans => exact absurd ⟨plans, outcome⟩ unplanned
    | error fault =>
        obtain ⟨numeral, rfl⟩ := Schema.numeral_of_plans (validate_of_ofTexts read) outcome
        exact ⟨numeral, rfl⟩

/-- No fault is a type that a table misses. -/
theorem ne_unknownType (missing : UnknownType) :
    (schema.plans cache).1 ≠ .error (.unknownType missing) ∧
      (matlabFiles schema cache).1 ≠ .error (.unknownType missing) ∧
      (pythonModule schema source cache).1 ≠ .error (.plan (.unknownType missing)) := by
  refine ⟨fun failed => ?_, fun failed => ?_, fun failed => ?_⟩
  · obtain ⟨numeral, other⟩ := Schema.numeral_of_plans (validate_of_ofTexts read) failed
    cases other
  · obtain ⟨numeral, other⟩ := numeral_of_matlabFiles read failed
    cases other
  · rcases pythonModule_eq_error read failed with ⟨name, -, other⟩ | ⟨numeral, other⟩
    · cases other
    · cases other

end Schemas

/-- **When rendering fails.** Let a schema be read from files. If all its structs are measured, its
plans and its MATLAB files are there, and so is its Python module, unless a name is refused. If an
extent is not readable, the MATLAB files are stopped by a number, and the Python module by a number
or a name. Planning is stopped by a number exactly if a member whose size is multiplied out has an
extent that is not readable. No table misses a type: neither the schema, which is asked for the
structs in a fingerprint, nor the packers of the Python module. -/
theorem faults_of_schema {texts : List String} {schema : Schema}
    (read : Schema.ofTexts texts = .ok schema) (source : Option String)
    (cache : FingerprintCache) :
    ((∀ struct ∈ schema.structs, struct.IsMeasured) →
      (∃ plans, (schema.plans cache).1 = .ok plans) ∧
      (∃ files, (matlabFiles schema cache).1 = .ok files) ∧
      ((∃ text, (pythonModule schema source cache).1 = .ok text) ∨
        ∃ name, checkNames [] schema.structs = .error name ∧
          (pythonModule schema source cache).1 = .error (.name name))) ∧
    (schema.HasUnreadable →
      (∃ numeral, (matlabFiles schema cache).1 = .error (.numeral numeral)) ∧
      ((∃ numeral, (pythonModule schema source cache).1 = .error (.plan (.numeral numeral))) ∨
        ∃ name, checkNames [] schema.structs = .error name ∧
          (pythonModule schema source cache).1 = .error (.name name))) ∧
    ((∃ numeral, (schema.plans cache).1 = .error (.numeral numeral)) ↔
      ∃ struct ∈ schema.structs, ∃ member ∈ struct.members, member.IsFolded ∧
        ∃ dimension ∈ member.dimensions, ¬ dimension.IsReadable) ∧
    ∀ missing, (schema.plans cache).1 ≠ .error (.unknownType missing) ∧
      (matlabFiles schema cache).1 ≠ .error (.unknownType missing) ∧
      (pythonModule schema source cache).1 ≠ .error (.plan (.unknownType missing)) := by
  refine ⟨fun measured => ⟨?_, ?_, ?_⟩, fun unreadable => ⟨?_, ?_⟩, plans_eq_error_iff read,
    ne_unknownType read⟩
  · refine (Schema.exists_plans_iff read).mpr fun struct listed member declared _ => ?_
    exact (measured struct listed).extents member declared
  · exact (exists_matlabFiles_iff read).mpr measured
  · exact pythonModule_of_measured read measured
  · exact matlabFiles_of_hasUnreadable read unreadable
  · exact pythonModule_of_hasUnreadable read unreadable

/-- An array of strings whose extent is a raised digit can be planned, but not rendered. -/
theorem faults_of_schema_raised :
    ∃ schema,
      Schema.ofTexts ["struct a \x7b string names[²]; int16_t tags[3]; \x7d"] = .ok schema ∧
      schema.HasUnreadable ∧
      (∀ numeral, (schema.plans []).1 ≠ .error (.numeral numeral)) ∧
      (∃ numeral, (matlabFiles schema []).1 = .error (.numeral numeral)) ∧
      ∃ fault, (pythonModule schema none []).1 = .error fault := by
  let names : Member := ⟨"names", .primitive .string, [.constant "²"]⟩
  let tags : Member := ⟨"tags", .primitive .int16, [.constant "3"]⟩
  let schema : Schema := ⟨[⟨"a", [names, tags], 4657939444726063830⟩]⟩
  have read : Schema.ofTexts ["struct a \x7b string names[²]; int16_t tags[3]; \x7d"] =
      .ok schema := by
    decide +kernel
  have raised : ¬ (Dimension.constant "²").IsReadable := by
    intro readable
    exact absurd ((readable rfl).1 '²' (List.mem_singleton_self _)) (by decide +kernel)
  have plain : (Dimension.constant "3").IsReadable := by
    refine fun _ => ⟨fun c digit => ?_, by decide⟩
    obtain rfl := List.mem_singleton.mp digit
    decide
  have unreadable : schema.HasUnreadable :=
    ⟨_, List.mem_singleton_self _, names, List.mem_cons_self, _, List.mem_singleton_self _, raised⟩
  obtain ⟨-, stops, planning, -⟩ := faults_of_schema read none []
  obtain ⟨matlab, python⟩ := stops unreadable
  refine ⟨schema, read, unreadable, fun numeral failed => ?_, matlab, ?_⟩
  · obtain ⟨struct, listed, member, declared, folded, dimension, present, own⟩ :=
      planning.mp ⟨numeral, failed⟩
    obtain rfl := List.mem_singleton.mp listed
    rcases List.mem_cons.mp declared with rfl | second
    · cases folded.fixed
    · obtain rfl := List.mem_singleton.mp second
      obtain rfl := List.mem_singleton.mp present
      exact own plain
  · rcases python with ⟨numeral, failed⟩ | ⟨name, -, failed⟩
    · exact ⟨_, failed⟩
    · exact ⟨_, failed⟩

end Backend

end Wireform
