import Wireform.Proofs.Backend.PythonLengths
import Wireform.Proofs.Backend.PythonMethods
import Wireform.Proofs.Backend.Shadowing

/-! # Layout of generated Python classes

The class of a struct is a suite, and is found again in the text of a module
(`Wireform.Backend.pythonClass`). So the lines of the class are laid out, a subscript stands in the
loop that counts its level, and the list of a level is started before it is appended to
(`Wireform.Backend.suites_of_pythonModule`). A struct that was read from a file has members, so no
constructor is empty.
-/

namespace Wireform.Backend

section Plans

variable {plan : TypePlan} (known : ReadPlan plan)
include known

/-- The class of a struct ends with the method that reads the members. -/
theorem suite_classLines (some : plan.struct.members ≠ []) {lines : List Line}
    (written : classLines plan = .ok lines) :
    ∃ before steps, plan.decode.steps.mapM decodeStep = .ok steps ∧
      (∀ quiet scope, Suite quiet 0 scope before) ∧
      lines = block (classHeader (flatName plan.struct.name)) (before ++
        block (pythonHeader .decode) (decoderBody (flatName plan.struct.name) steps)) := by
  obtain ⟨init, size, encode, decode, initWritten, sizeWritten, encodeWritten, decodeWritten,
    rfl⟩ :=
    classLines_eq_ok written
  obtain ⟨outer, steps, stepsWritten, outerNested, rfl⟩ := suite_decodeMethods known decodeWritten
  refine ⟨_, steps, stepsWritten, fun quiet scope => ?_,
    congrArg (block _) (List.append_assoc ..).symm⟩
  have described : Tame scope ("\"\"\"LCM type " ++ plan.struct.name ++ ", fingerprint 0x" ++
      Text.hexText 16 plan.fingerprint.toNat ++ ".\"\"\"") :=
    Tame.ofList (by decide) |>.append (.dotted known.read.name) |>.append (.ofList (by decide))
      |>.append (.hexText _ _) |>.append (.ofList (by decide))
  have slots : Suite quiet 0 scope _ :=
    suite_slots (fun member listed => (known.read.members member listed).name) some
  refine .append (.append (.append (.append (.append (.append ?_ ?_) ?_) ?_) ?_) ?_) ?_
  · exact .append (.statement (last_fixed _ rfl) (by decide) described.stands (.blank .nil))
      (.append slots (.blank (.fixed (by decide) (.blank .nil))))
  · exact suite_initMethod known.read some initWritten
  · exact suite_valueMethods known.read.name
  · exact suite_hashMethods known.read.name known.dependency
  · exact suite_sizeMethods known sizeWritten
  · exact suite_encodeMethods known encodeWritten
  · exact outerNested quiet scope

/-- The class of a struct, with what stands before the method that reads the members. -/
theorem suite_class {before : List Line} (nested : ∀ scope, Suite false 0 scope before)
    {steps : List (List Line)} (written : plan.decode.steps.mapM decodeStep = .ok steps) :
    Suite false 0 [] (block (classHeader (flatName plan.struct.name)) (before ++
      block (pythonHeader .decode) (decoderBody (flatName plan.struct.name) steps))) := by
  have method (scope : List String) : Suite false 0 scope
      (block (pythonHeader .decode) (decoderBody (flatName plan.struct.name) steps)) :=
    .fixedUnder (by decide) (by simp [plain, decoderBody]) (suite_decoderBody known written)
  have filled : plain (pythonHeader .decode) ∈
      block (pythonHeader .decode) (decoderBody (flatName plan.struct.name) steps) :=
    List.mem_cons_self
  have opens : (plain (pythonHeader .decode)).text ≠ "" := pythonHeader_ne_empty .decode
  refine .under (last_fixed _ rfl)
    (fun written => ⟨written, ?_, fun quiet => absurd quiet Bool.false_ne_true⟩)
    ⟨_, List.mem_append_right _ filled, opens⟩ ((nested _).append (method _))
  have start : Tame [] ("class " ++ flatName plan.struct.name) :=
    (Tame.ofList (by decide)).append (.flatName known.read.name)
  exact (start.subscripts.append (Frame.quiet_ofList rfl)).fits

end Plans

/-! ### Before the steps -/

/-- What stands before the steps of the decoder of a class. -/
def beforeSteps (className : String) (before : List Line) : List Line :=
  ⟨0, classHeader className⟩ :: deeper (occupied before) ++
    [⟨1, pythonHeader .decode⟩, ⟨2, "msgs = []"⟩, ⟨2, "for _ in range(elems):"⟩,
      ⟨3, "msg = " ++ className ++ "()"⟩]

private theorem not_hasAppend_of_mem_deeper {lines : List Line}
    (calm : ∀ line ∈ lines, ∀ level, ¬ HasAppend level line.text) :
    ∀ line ∈ deeper lines, ∀ level, ¬ HasAppend level line.text := by
  intro line member
  obtain ⟨shallow, present, rfl⟩ := List.mem_map.mp member
  exact calm shallow present

private theorem not_hasAppend_beforeSteps {className : String} (undotted : '.' ∉ className.toList)
    {before : List Line} (calm : ∀ line ∈ before, ∀ level, ¬ HasAppend level line.text) :
    ∀ line ∈ beforeSteps className before, ∀ level, ¬ HasAppend level line.text := by
  have header : '.' ∉ (classHeader className).toList := by simp [classHeader, undotted]
  have method : '.' ∉ (pythonHeader .decode).toList := by simp [pythonHeader]
  have message : '.' ∉ ("msg = " ++ className ++ "()").toList := by simp [undotted]
  refine List.forall_mem_append.mpr ⟨List.forall_mem_cons.mpr ⟨?_, ?_⟩, ?_⟩
  · exact not_hasAppend_of_not_mem (.inr (.inl rfl)) header
  · exact not_hasAppend_of_mem_deeper fun line inside => calm line (List.mem_filter.mp inside).1
  · exact List.forall_mem_cons.mpr ⟨not_hasAppend_of_not_mem (.inr (.inl rfl)) method,
      List.forall_mem_cons.mpr ⟨not_hasAppend_of_not_mem (.inl rfl) (by simp),
      List.forall_mem_cons.mpr ⟨not_hasAppend_of_not_mem (.inr (.inl rfl)) (by simp),
      List.forall_mem_singleton.mpr (not_hasAppend_of_not_mem (.inr (.inl rfl)) message)⟩⟩⟩

/-! ### Modules -/

/-- **Classes are laid out.** In every module, no line of a class starts with a blank apart from its
indentation. The line after one that ends in a colon stands one level deeper, and the line after any
other no deeper; no class ends with a colon. A subscript of a level stands in a loop that counts the
level, in the same method. A list of a level is appended to only in the steps that read the members,
and there after a line of the same step that starts it, in the same suite or in one around it. -/
theorem suites_of_pythonModule {texts : List String} {schema : Schema} {source : Option String}
    {cache : FingerprintCache} {text : String} (read : Schema.ofTexts texts = .ok schema)
    (written : (pythonModule schema source cache).1 = .ok text) :
    ∀ struct ∈ schema.structs,
      (∀ line ∈ pythonClass (flatName struct.name) text, line.text.toList.head? ≠ some ' ') ∧
      (pythonClass (flatName struct.name) text).IsChain Follows ∧
      (∀ line ∈ (pythonClass (flatName struct.name) text).getLast?,
        endsInColon line.text = false) ∧
      (∀ before line after,
        pythonClass (flatName struct.name) text = before ++ line :: after →
          ∀ level, HasSubscript level line.text →
            Counted ((ancestors before line.depth).map Line.text) level) ∧
      ∃ opening steps closing, (struct.members.map FieldStep.ofMember).mapM decodeStep = .ok steps ∧
        pythonClass (flatName struct.name) text = opening ++ sunk 3 steps.flatten ++ closing ∧
        (∀ line ∈ opening ++ closing, ∀ level, ¬ HasAppend level line.text) ∧
        ∀ step ∈ steps, ∀ before line after, step = before ++ line :: after →
          ∀ level, HasAppend level line.text → StartedBefore before line level := by
  intro struct listed
  obtain ⟨package, taken, derived⟩ := Schema.derived_of_ofTexts read listed
  have some := derived.isStruct.occupied
  have names := undotted_of_ofTexts read listed
  obtain ⟨plan, lines, rfl, known, linesWritten, same⟩ := exists_pythonClass_eq read written listed
  obtain ⟨legible, -⟩ := legible_classLines known linesWritten
  obtain ⟨before, steps, stepsWritten, nested, rfl⟩ := suite_classLines known some linesWritten
  have whole : Suite false 0 [] _ := suite_class known (nested false) stepsWritten
  rw [known.belongs.decode] at stepsWritten
  have members := known.read.members
  have facts : List.Forall₂ pythonWording.IsStep plan.struct.members steps :=
    isStep_of_steps members names stepsWritten
  have undotted := not_mem_flatName_dot plan.struct.name
  rw [same]
  refine ⟨fun line inside => (legible line (List.mem_filter.mp inside).1).flush,
    whole.layered.follow, whole.layered.ends, ?_, beforeSteps (flatName plan.struct.name) before,
    steps, [⟨3, "msgs.append(msg)"⟩, ⟨2, "return pos, msgs"⟩], stepsWritten, ?_, ?_, ?_⟩
  · intro front line after shape level found
    have top : (ancestors [] 0).map Line.text = [] := rfl
    exact whole.counted_ancestors top shape found
  · rw [occupied_block (classHeader_ne_empty _), occupied_append,
      occupied_block (pythonHeader_ne_empty _), deeper_append, deeper_cons,
      decoderBody_of_steps facts]
    simp [beforeSteps, plain, Line.deeper]
  · refine List.forall_mem_append.mpr ⟨not_hasAppend_beforeSteps undotted (nested true []).calm, ?_⟩
    exact List.forall_mem_cons.mpr ⟨not_hasAppend_of_not_mem (.inl rfl) (by simp),
      List.forall_mem_singleton.mpr (not_hasAppend_of_not_mem (.inl rfl) (by simp))⟩
  · intro step present front line after shape level found
    obtain ⟨field, chosen, stepWritten⟩ := Outcome.exists_of_mem_mapM stepsWritten present
    obtain ⟨member, inside, rfl⟩ := List.mem_map.mp chosen
    have fills := fills_decodeStep (members member inside) stepWritten
    exact (fills front line after shape level found).resolve_left List.not_mem_nil

/-- The list of the second level of a row of rows of texts is filled after it is started. -/
theorem suites_of_pythonModule_rows :
    ∃ schema text step,
      Schema.ofTexts ["struct cell \x7b int32_t n; string rows[2][n]; \x7d"] = .ok schema ∧
      (pythonModule schema none []).1 = .ok text ∧
      (pythonClass "cell" text).IsChain Follows ∧
      (∀ before line after, pythonClass "cell" text = before ++ line :: after →
        HasSubscript 1 line.text → Counted ((ancestors before line.depth).map Line.text) 1) ∧
      decodeStep (.ofMember ⟨"rows", .primitive .string, [.constant "2", .dynamic "n"]⟩) =
        .ok step ∧
      ⟨2, "_t1.append(_v)"⟩ ∈ step ∧
      ∀ before line after, step = before ++ line :: after → HasAppend 1 line.text →
        StartedBefore before line 1 := by
  let rows : Member := ⟨"rows", .primitive .string, [.constant "2", .dynamic "n"]⟩
  let cell : Struct := ⟨"cell", [⟨"n", .primitive .int32, []⟩, rows], 18113312609934389864⟩
  let schema : Schema := ⟨[cell]⟩
  have read : Schema.ofTexts ["struct cell \x7b int32_t n; string rows[2][n]; \x7d"] =
      .ok schema := by
    decide +kernel
  obtain ⟨text, written⟩ : ∃ text, (pythonModule schema none []).1 = .ok text :=
    Outcome.exists_of_isOk (by decide +kernel)
  obtain ⟨-, follow, -, counted, opening, steps, closing, stepsWritten, -, -, started⟩ :=
    suites_of_pythonModule read written cell List.mem_cons_self
  have named : flatName cell.name = "cell" := by decide +kernel
  rw [named] at follow counted
  have listed : FieldStep.ofMember rows ∈ cell.members.map FieldStep.ofMember :=
    List.mem_map_of_mem (List.mem_cons_of_mem _ List.mem_cons_self)
  obtain ⟨step, present, stepWritten⟩ := Outcome.mem_of_mapM stepsWritten listed
  have appends : (decodeStep (.ofMember rows)).map (·.contains ⟨2, "_t1.append(_v)"⟩) =
      .ok true := by
    decide +kernel
  rw [stepWritten] at appends
  exact ⟨schema, text, step, read, written, follow,
    fun before line after shape => counted before line after shape 1, stepWritten,
    List.contains_iff_mem.mp (Except.ok.inj appends),
    fun before line after shape => started step present before line after shape 1⟩

end Wireform.Backend
