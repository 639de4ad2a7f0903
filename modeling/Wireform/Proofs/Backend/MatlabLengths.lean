import Wireform.Proofs.Backend.LengthOrder
import Wireform.Proofs.Backend.MatlabNames

/-! # Lengths in generated MATLAB decoders

The step of a member in a MATLAB decoder tests the lengths of the member and then has one counted
loop for each dimension (`Wireform.Backend.isStep_matlabDecodeStep`). The value goes into an element
of the member, so a member without dimensions is assigned to as a whole. A decoder is a file of its
own, and the comments and the function around the steps mention no field
(`Wireform.Backend.lengthsFirst_decodeMembersFile`).
-/

namespace Wireform.Backend

/-- The lines that matter for the lengths in a MATLAB decoder. -/
def matlabWording : Wording String where
  owner := "S(ix)"
  depth := 2
  stored := fun name => "S(ix)." ++ name ++ " = t(1);"
  test := fun name => "if " ++ ("S(ix)." ++ name ++ " < 0")
  refusal := deeper [plain "pos = -1;", plain "return;"] ++ [plain "end"]
  read := readMatlab .decode
  element := matlabElementName

/-- The tests of the functions are conditions on one length. -/
theorem isRegular_matlabWording : matlabWording.IsRegular where
  shape := by
    refine ⟨"if ".toList, " < 0".toList, fun name => ?_, by simp [matlabWording], ?_, by
      simp [not_isPlainPart]⟩
    · simp [matlabWording]
    · exact ⟨by simp, by simp, not_infix_in (by simp)⟩
  opens := fun name => by simp [matlabWording, String.toList_append]
  unmarked := by
    intro name counter extent
    have starts : (matlabWording.test name).toList.head? = some 'i' := by simp [matlabWording]
    have unmarked : matlabWording.read (matlabWording.test name) = none :=
      readMatlab_eq_none starts (by decide) (by decide)
    rw [unmarked]
    exact (Option.some_ne_none _).symm
  refusal := by
    have refused : readMatlab .decode "pos = -1;" = none :=
      readMatlab_eq_none (head_ofList _ _) (by decide) (by decide)
    have unmarked : ∀ line ∈ matlabWording.refusal, readMatlab .decode line.text = none := by
      simp [matlabWording, plain, Line.deeper, refused, readMatlab_return, readMatlab_end]
    intro line inside
    refine ⟨?_, ?_, ?_⟩
    · revert line
      simp [matlabWording, plain, Line.deeper]
    · revert line
      simp [matlabWording, plain, Line.deeper]
    · rintro ⟨counter, extent, marked⟩
      cases (unmarked line inside).symm.trans marked

/-! ### Lines of a step -/

private theorem not_mem_storageClass {c : Char} (symbol : c.isAlphanum = false) (p : Primitive) :
    c ∉ (storageClass p).toList :=
  fun member => absurd (symbol.symm.trans (isAlphanum_of_mem_storageClass member)) nofun

/-- A character that is no letter or digit is in no function name unless it is in the class name. -/
theorem not_mem_matlabName {c : Char} (symbol : c.isAlphanum = false) {name : String}
    (flat : c ∉ (flatName name).toList) : c ∉ (matlabName name).toList := by
  unfold matlabName
  split
  · exact not_mem_storageClass symbol _
  · exact flat

private theorem not_mem_matlabName_dot (name : String) : '.' ∉ (matlabName name).toList :=
  not_mem_matlabName rfl (not_mem_flatName_dot name)

private theorem not_mem_matlabScalar_dot (type : FieldType) : '.' ∉ (matlabScalar type).toList := by
  unfold matlabScalar
  split
  · simp
  · next p _ =>
      have plain := not_mem_storageClass (by rfl : '.'.isAlphanum = false) p
      simp [plain]
  · next name =>
      have plain := not_mem_matlabName_dot name
      simp [plain]

/-- The counters of some loops have no dots. -/
theorem not_mem_counters_dot (depth : Nat) : '.' ∉ (String.intercalate ", "
    ((List.range depth).map fun k => "dx" ++ toString k)).toList := by
  refine not_mem_intercalate (by simp) fun text present => ?_
  obtain ⟨level, -, rfl⟩ := List.mem_map.mp present
  rw [String.toList_append, List.mem_append, not_or]
  exact ⟨by simp, not_mem_toString_dot level⟩

/-- An element of a member is its field, followed by the counters in brackets if there are any. -/
theorem matlabElement_eq (owner : String) (member : Member) (depth : Nat) :
    ∃ choice : String, matlabElement owner member depth = owner ++ "." ++ member.name ++ choice ∧
      '.' ∉ choice.toList ∧ ∀ c ∈ choice.toList.head?, isPlainPart c = false := by
  have counters := not_mem_counters_dot depth
  unfold matlabElement
  dsimp only
  generalize String.intercalate ", " _ = index at counters ⊢
  split
  · exact ⟨"", (String.append_empty ..).symm, by simp, by simp⟩
  · split
    · refine ⟨"\x7b" ++ index ++ "\x7d", by simp only [String.append_assoc], ?_, ?_⟩
      · simp [counters]
      · simp [not_isPlainPart]
    · refine ⟨"(" ++ index ++ ")", by simp only [String.append_assoc], ?_, ?_⟩
      · simp [counters]
      · simp [not_isPlainPart]

section Lines

variable {member : Member}

private theorem acts_matlabCall (type : FieldType) :
    matlabWording.Acts member ("[pos, t] = " ++ matlabName type.name ++
      "_decode_nohash(buf, pos, maxlen, " ++ matlabScalar type ++ ", 1);") := by
  have name := not_mem_matlabName_dot type.name
  have scalar := not_mem_matlabScalar_dot type
  refine .of_undotted isRegular_matlabWording ?_ ?_
  · simp
  · simp [name, scalar]

private theorem acts_positionCheck :
    ∀ line ∈ conditional "pos < 1" [plain "return;"], matlabWording.Acts member line.text := by
  have acts : ∀ text ∈ ["if pos < 1", "return;", "end"], matlabWording.Acts member text := by
    intro text listed
    refine .of_undotted isRegular_matlabWording ?_ ?_
    · rintro rfl
      simp at listed
    · revert text
      simp
  intro line inside
  refine acts _ ?_
  revert line
  simp [conditional, closedBlock, plain, Line.deeper]

/-- A line that assigns to an element of the member. -/
theorem acts_matlabTarget (undotted : Undotted member.name) (depth : Nat) {value : String}
    (valuePlain : '.' ∉ value.toList) :
    matlabWording.Acts member (matlabElement "S(ix)" member depth ++ " = " ++ value ++ ";") := by
  obtain ⟨choice, shape, choicePlain, ends⟩ := matlabElement_eq "S(ix)" member depth
  have starts : (matlabElement "S(ix)" member depth ++ " = " ++ value ++ ";").toList.head? =
      some 'S' := by
    simp [shape]
  have whole : (matlabElement "S(ix)" member depth ++ " = " ++ value ++ ";").toList =
      "S(ix)".toList ++
        '.' :: (member.name.toList ++ (choice ++ " = " ++ value ++ ";").toList) := by
    simp [shape]
  refine ⟨.of_target undotted
    (not_opensBlock_of_head starts (by decide) (by decide) (by decide)) whole (by simp) ?_ ?_,
    isRegular_matlabWording.ne_test_of_head starts (by decide)⟩
  · simp [choicePlain, valuePlain]
  · cases first : choice.toList with
    | nil => simp [first, not_isPlainPart]
    | cons c rest =>
        have other := ends c (by rw [first]; rfl)
        simp [first, other]

variable (undotted : ∀ dimension ∈ member.dimensions, dimension.isConstant = false →
  Undotted dimension.size)

include undotted

/-- A line that opens a loop. -/
theorem acts_matlabLoop {dimension : Dimension} (listed : dimension ∈ member.dimensions)
    (level : Nat) {text : String} (written : matlabExtent "S(ix)" dimension = .ok text) :
    matlabWording.Acts member ("for dx" ++ toString level ++ " = 1:" ++ text) := by
  obtain ⟨extent, found, rfl⟩ := extentText_eq_ok written
  have counter : '.' ∉ Nat.toDigits 10 level := by simpa using not_mem_toString_dot level
  have acts : matlabWording.Acts member
      ("for dx" ++ toString level ++ " = 1:" ++ extent.text "S(ix)" ++ "") :=
    .of_loop isRegular_matlabWording listed (undotted dimension listed) found (by simp)
      (by simp [matlabWording, counter]) ⟨by simp, by simp, not_infix_in (by simp)⟩ (by simp)
  rwa [String.append_empty] at acts

private theorem acts_countedLoops {body lines : List Line} {level : Nat}
    {dimensions : List Dimension}
    (listed : ∀ dimension ∈ dimensions, dimension ∈ member.dimensions)
    (acts : ∀ line ∈ body, matlabWording.Acts member line.text)
    (written : countedLoops "S(ix)" body level dimensions = .ok lines) :
    ∀ line ∈ lines, matlabWording.Acts member line.text := by
  induction dimensions generalizing level lines with
  | nil =>
      obtain rfl := Outcome.pure_eq_ok.mp written
      exact acts
  | cons dimension dimensions ih =>
      obtain ⟨here, later⟩ := List.forall_mem_cons.mp listed
      obtain ⟨extent, inner, extentWritten, innerWritten, rfl⟩ := countedLoops_cons_eq_ok written
      have closes : matlabWording.Acts member "end" :=
        .of_undotted isRegular_matlabWording (by simp) (by simp)
      exact List.forall_mem_append.mpr
        ⟨forall_mem_block (acts_matlabLoop undotted here level extentWritten)
          (ih later innerWritten), List.forall_mem_singleton.mpr closes⟩

end Lines

/-! ### Steps -/

/-- **The step of a member is one for lengths.** -/
theorem isStep_matlabDecodeStep {member : Member} (read : member.ReadFrom Source.Dotted)
    (name : Undotted member.name) {lines : List Line}
    (written : matlabDecodeStep (.ofMember member) = .ok lines) :
    matlabWording.IsStep member lines := by
  have undotted : ∀ dimension ∈ member.dimensions, dimension.isConstant = false →
      Undotted dimension.size :=
    fun dimension listed => .of_written (read.dimensions dimension listed)
  have outline := skeleton_matlabDecodeStep read.type written
  obtain ⟨loops, loopsWritten, rfl⟩ := Outcome.returning_eq_ok.mp written
  have value : '.' ∉ (if member.type = .primitive .string then "t" else "t(1)").toList := by
    split <;> simp
  have acts := acts_countedLoops undotted (fun _ listed => listed)
    (List.forall_mem_append.mpr ⟨List.forall_mem_cons.mpr ⟨acts_matlabCall member.type,
      acts_positionCheck⟩, List.forall_mem_singleton.mpr
        (acts_matlabTarget name member.dimensions.length value)⟩) loopsWritten
  refine Wording.isStep_of_guards isRegular_matlabWording undotted acts outline ?_
  intro scalar integer
  have number : member.type ≠ .primitive .string := by
    intro same
    rw [same] at integer
    cases integer
  have stored : matlabElement "S(ix)" member 0 ++ " = " ++
      (if member.type = .primitive .string then "t" else "t(1)") ++ ";" =
        matlabWording.stored member.name := by
    apply String.toList_inj.mp
    simp [matlabElement, matlabWording, number]
  have single : (FieldStep.ofMember member).loops = [] := scalar
  rw [single] at loopsWritten
  obtain rfl := Outcome.pure_eq_ok.mp loopsWritten
  exact ⟨_, congrArg (fun text => _ ++ [plain text]) stored⟩

/-! ### Decoders -/

/-- The steps of a file stand between its comments with the lines that open the function, and the
lines that close it. -/
theorem codeLines_of_steps {members : List Member} {steps : List (List Line)}
    (facts : List.Forall₂ matlabWording.IsStep members steps)
    (legible : LegibleLines steps.flatten) {signature : String} (unbroken : Unbroken signature) :
    codeLines (functionText signature
        (deeper (closedBlock "for ix = 1:elems" steps.flatten "end"))) =
      (occupied (fileComments.map plain) ++
          [plain ("function " ++ signature), ⟨1, "for ix = 1:elems"⟩]) ++
        sunk 2 steps.flatten ++ [⟨1, "end"⟩, plain "%endfunction"] := by
  have full : occupied (closedBlock "for ix = 1:elems" steps.flatten "end") =
      closedBlock "for ix = 1:elems" steps.flatten "end" := by
    rw [closedBlock_eq, occupied_append, occupied_block (by simp),
      occupied_eq_self (Wording.written_of_steps facts)]
    rfl
  have moved : sunk 2 steps.flatten = deeper (deeper steps.flatten) := by
    simp only [deeper_eq_sunk, sunk_sunk]
  rw [codeLines_functionText unbroken
      (.deeper (.closedBlock (.ofList rfl) (.ofList rfl) legible)),
    fileHeader_eq_layOut, codeLines_layOut legible_fileComments, occupied_cons (by simp [plain]),
    occupied_append, occupied_deeper, full, moved]
  generalize steps.flatten = body
  simp [closedBlock, plain, Line.deeper, Line.blank, occupied]

private theorem around_fileComments :
    ∀ line ∈ occupied (fileComments.map plain), matlabWording.Around line.text := by
  have plain : ∀ text ∈ fileComments, '=' ∉ text.toList := by simp [fileComments]
  intro line inside
  obtain ⟨comment, listed, rfl⟩ := List.mem_map.mp (List.mem_filter.mp inside).1
  have starts := head_fileComments comment listed
  have unmarked : readMatlab .decode comment = none :=
    readMatlab_eq_none starts (by decide) (by decide)
  exact .of_flat unmarked (not_opensBlock_of_head starts (by decide) (by decide) (by decide))
    (plain comment listed)

private theorem around_signature {signature : String} (undotted : '.' ∉ signature.toList) :
    matlabWording.Around ("function " ++ signature) := by
  have unmarked : readMatlab .decode ("function " ++ signature) = none := by
    simp [readMatlab, readLoop, matlabTarget, List.isPrefixOf?]
  refine .of_undotted unmarked ?_
  simp [undotted]

private theorem around_values : matlabWording.Around "for ix = 1:elems" := by
  have unmarked : readMatlab .decode "for ix = 1:elems" = none := by
    simp [readMatlab, readLoop, matlabTarget, List.isPrefixOf?]
  exact .of_undotted unmarked (by simp)

/-- **MATLAB decoders read lengths before they use them.** -/
theorem lengthsFirst_decodeMembersFile {plan : TypePlan} {names : List String}
    (sound : plan.struct.Sound names) (known : ReadPlan plan)
    (undotted : ∀ member ∈ plan.struct.members, Undotted member.name) {text : String}
    (written : decodeMembersFile (matlabName plan.struct.name) plan = .ok text) :
    matlabWording.LengthsFirst plan.struct (codeLines text) := by
  obtain ⟨steps, stepsWritten, rfl⟩ := Outcome.returning_eq_ok.mp written
  rw [known.belongs.decode] at stepsWritten
  have members := known.read.members
  have facts : List.Forall₂ matlabWording.IsStep plan.struct.members steps := by
    rw [CodecPlan.ofStruct, List.mapM_map] at stepsWritten
    exact Outcome.forall₂_of_mapM (fun member present _ =>
      isStep_matlabDecodeStep (members member present) (undotted member present)) stepsWritten
  have legible : LegibleLines steps.flatten :=
    .steps (fun member present _ => legible_matlabDecodeStep (members member present)) stepsWritten
  have stem : Unbroken (matlabName plan.struct.name) :=
    not_mem_matlabName rfl (Unbroken.flatName known.read.name)
  have stemPlain := not_mem_matlabName_dot plan.struct.name
  rw [codeLines_of_steps facts legible (Unbroken.append (.ofList rfl) stem
    |>.append (.ofList rfl))]
  refine Wording.lengthsFirst_of_steps sound facts (List.forall_mem_append.mpr
    ⟨around_fileComments, List.forall_mem_cons.mpr ⟨around_signature ?_,
      List.forall_mem_singleton.mpr around_values⟩⟩) ?_
  · simp [stemPlain]
  · have ends : readMatlab .decode "%endfunction" = none :=
      readMatlab_eq_none (head_ofList _ _) (by decide) (by decide)
    exact List.forall_mem_cons.mpr ⟨.of_undotted (readMatlab_end .decode) (by simp),
      List.forall_mem_singleton.mpr (.of_undotted ends (by simp [plain]))⟩

end Wireform.Backend
