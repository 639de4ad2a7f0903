import Wireform.Proofs.Backend.LengthOrder
import Wireform.Proofs.Backend.PythonModules
import Wireform.Proofs.Plan.LengthGuard

/-! # Lengths in generated Python decoders

The step of a member in a Python decoder tests the lengths of the member, holds the innermost of
them against the bytes that are left, and loops over them
(`Wireform.Backend.isStep_decodeStep`). Its other lines call functions and fill lists, and mention
the message only where they put the member into it. So the decoder of every class reads lengths
before it uses them (`Wireform.Backend.lengthsFirst_pythonDecoder`).
-/

namespace Wireform.Backend

/-- The lines that matter for the lengths in a Python decoder. -/
def pythonWording : Wording PythonElement where
  owner := "msg"
  depth := 3
  stored := fun name => "msg." ++ name ++ " = _v"
  test := fun name => "if msg." ++ name ++ " < 0:"
  refusal := deeper [plain "return -1, None"]
  read := readPython .decode
  element := pythonElement

/-- The tests of the methods are conditions on one length. -/
theorem isRegular_pythonWording : pythonWording.IsRegular where
  shape := by
    refine ⟨"if ".toList, " < 0:".toList, fun name => ?_, by simp [pythonWording], ?_, by
      simp [not_isPlainPart]⟩
    · simp [pythonWording]
    · exact ⟨by simp, by simp, not_infix_in (by simp)⟩
  opens := fun name => by simp [pythonWording, String.toList_append]
  unmarked := by
    intro name counter extent
    have starts : (pythonWording.test name).toList.head? = some 'i' := by simp [pythonWording]
    have unmarked : pythonWording.read (pythonWording.test name) = none :=
      readPython_eq_none starts (by decide) (by decide)
    rw [unmarked]
    exact nofun
  refusal := by
    intro line inside
    obtain rfl := List.mem_singleton.mp inside
    have unmarked : pythonWording.read "return -1, None" = none := readPython_refusal.2
    refine ⟨by simp [plain, Line.deeper], by simp [plain, Line.deeper], ?_⟩
    rintro ⟨counter, extent, marked⟩
    exact absurd (unmarked.symm.trans marked) nofun

/-! ### Lines of a step -/

section Lines

variable {member : Member}

private theorem acts_decodeCall {type : FieldType} {call : String}
    (written : decodeCall type = .ok call) :
    pythonWording.Acts member ("pos, _v = " ++ call) := by
  have starts : ("pos, _v = " ++ call).toList.head? = some 'p' := by simp
  refine ⟨?_, isRegular_pythonWording.ne_test_of_head starts (by decide)⟩
  rcases decodeCall_cases written with ⟨-, rfl⟩ | ⟨p, packer, -, packed, rfl⟩ | ⟨name, -, rfl⟩
  · exact .of_undotted (by simp) (by simp)
  · have undotted : '.' ∉ packer.toList := by
      cases p <;> cases packed <;> decide
    exact .of_undotted (by simp) (by simp [undotted])
  · have shape :
        ("pos, _v = " ++ (flatName name ++ "._decode_nohash(buf, pos, maxlen, 1)")).toList =
          ("pos, _v = " ++ flatName name).toList ++ '.' ::
            "_decode_nohash(buf, pos, maxlen, 1)".toList := by
      simp
    refine .of_flat (not_opensBlock_of_head starts (by decide) (by decide) (by decide)) shape ?_
      (by simp)
    rw [String.toList_append, List.mem_append, not_or]
    exact ⟨by simp, not_mem_flatName_dot name⟩

private theorem acts_refusal : pythonWording.Acts member "return -1, None" :=
  .of_undotted isRegular_pythonWording (by simp) (by simp)

private theorem acts_readingLines {type : FieldType} {call : String}
    (written : decodeCall type = .ok call) :
    ∀ line ∈ readingLines call, pythonWording.Acts member line.text := by
  have checked : pythonWording.Acts member "if pos < 0:" :=
    .of_undotted isRegular_pythonWording (by simp) (by simp)
  refine List.forall_mem_cons.mpr ⟨acts_decodeCall written, ?_⟩
  exact forall_mem_block checked (List.forall_mem_singleton.mpr acts_refusal)

/-- A line that puts something into a list. -/
theorem acts_append (level : Nat) {value : String} (valuePlain : '.' ∉ value.toList)
    (valueOnly : '=' ∉ value.toList) :
    pythonWording.Acts member ("_t" ++ toString level ++ ".append(" ++ value ++ ")") := by
  have starts : ("_t" ++ toString level ++ ".append(" ++ value ++ ")").toList.head? = some '_' := by
    simp
  have shape : ("_t" ++ toString level ++ ".append(" ++ value ++ ")").toList =
      ("_t" ++ toString level).toList ++ '.' :: ("append(" ++ value ++ ")").toList := by
    simp
  refine ⟨.of_flat (not_opensBlock_of_head starts (by decide) (by decide) (by decide)) shape ?_ ?_,
    isRegular_pythonWording.ne_test_of_head starts (by decide)⟩
  · rw [String.toList_append, List.mem_append, not_or]
    exact ⟨by simp, not_mem_toString_dot level⟩
  · simp [valuePlain, valueOnly]

private theorem not_mem_list (level : Nat) {c : Char} (symbol : c.isDigit = false)
    (apart : c ∉ ['_', 't']) :
    c ∉ ("_t" ++ toString level).toList := by
  rw [String.toList_append, List.mem_append, not_or]
  refine ⟨apart, fun member => ?_⟩
  rw [isDigit_of_mem_toString member] at symbol
  cases symbol

private theorem acts_list (level : Nat) :
    pythonWording.Acts member ("_t" ++ toString level ++ " = []") := by
  refine .of_undotted isRegular_pythonWording (by simp) ?_
  rw [String.toList_append, List.mem_append, not_or]
  exact ⟨not_mem_list level rfl (by decide), by simp⟩

/-- A line that assigns to the member. -/
theorem acts_target (undotted : Undotted member.name) {value : String}
    (valuePlain : '.' ∉ value.toList) :
    pythonWording.Acts member ("msg." ++ member.name ++ " = " ++ value) := by
  have starts : ("msg." ++ member.name ++ " = " ++ value).toList.head? = some 'm' := by simp
  have shape : ("msg." ++ member.name ++ " = " ++ value).toList =
      "msg".toList ++ '.' :: (member.name.toList ++ (" = " ++ value).toList) := by
    simp
  refine ⟨.of_target undotted
    (not_opensBlock_of_head starts (by decide) (by decide) (by decide)) shape (by simp) ?_ ?_,
    isRegular_pythonWording.ne_test_of_head starts (by decide)⟩
  · simp [valuePlain]
  · simp [not_isPlainPart]

variable (undotted : ∀ dimension ∈ member.dimensions, dimension.isConstant = false →
  Undotted dimension.size)

include undotted

/-- A line that opens a loop. -/
theorem acts_loop {dimension : Dimension} (listed : dimension ∈ member.dimensions) (level : Nat)
    {text : String} (written : extentText "msg" dimension = .ok text) :
    pythonWording.Acts member ("for d" ++ toString level ++ " in range(" ++ text ++ "):") := by
  obtain ⟨extent, found, rfl⟩ := extentText_eq_ok written
  have counter : '.' ∉ Nat.toDigits 10 level := by simpa using not_mem_toString_dot level
  exact .of_loop isRegular_pythonWording listed (undotted dimension listed) found (by simp)
    (by simp [pythonWording, counter]) ⟨by simp, by simp, not_infix_in (by simp)⟩
    (by simp [not_isPlainPart])

private theorem acts_fillingLoops {body lines : List Line} {value : String} {level : Nat}
    {dimensions : List Dimension} (listed : ∀ dimension ∈ dimensions, dimension ∈ member.dimensions)
    (valuePlain : '.' ∉ value.toList) (valueOnly : '=' ∉ value.toList)
    (acts : ∀ line ∈ body, pythonWording.Acts member line.text)
    (written : fillingLoops "msg" body value level dimensions = .ok lines) :
    ∀ line ∈ lines, pythonWording.Acts member line.text := by
  induction dimensions generalizing level lines with
  | nil =>
      obtain rfl := Outcome.pure_eq_ok.mp written
      exact acts
  | cons dimension dimensions ih =>
      obtain ⟨here, later⟩ := List.forall_mem_cons.mp listed
      obtain ⟨extent, filling, item, extentWritten, rfl, shape⟩ := fillingLoops_cons_eq_ok written
      have filled : (∀ line ∈ filling, pythonWording.Acts member line.text) ∧
          '.' ∉ item.toList ∧ '=' ∉ item.toList := by
        rcases shape with ⟨-, rfl, rfl⟩ | ⟨inner, innerWritten, rfl, rfl⟩
        · exact ⟨acts, valuePlain, valueOnly⟩
        · exact ⟨List.forall_mem_cons.mpr ⟨acts_list (level + 1), ih later innerWritten⟩,
            not_mem_list (level + 1) rfl (by decide), not_mem_list (level + 1) rfl (by decide)⟩
      obtain ⟨inside, itemPlain, itemOnly⟩ := filled
      refine forall_mem_block (acts_loop undotted here level extentWritten) ?_
      exact List.forall_mem_append.mpr
        ⟨inside, List.forall_mem_singleton.mpr (acts_append level itemPlain itemOnly)⟩

private theorem acts_boundCheck :
    ∀ line ∈ boundCheck (.ofMember member), pythonWording.Acts member line.text := by
  unfold boundCheck
  split
  · exact List.forall_mem_nil _
  · next length bounded =>
      split
      · exact List.forall_mem_nil _
      · obtain ⟨outer, inner, shape, dynamic, rfl⟩ := FieldStep.loops_of_boundedLength? bounded
        have loops : member.dimensions = outer ++ [inner] := shape
        have listed : inner ∈ member.dimensions :=
          loops ▸ List.mem_append_right _ List.mem_cons_self
        refine forall_mem_block ⟨?_, ?_⟩ (List.forall_mem_singleton.mpr acts_refusal)
        · have shape : ("if msg." ++ inner.size ++ " > maxlen - pos:").toList =
              "if msg".toList ++ '.' :: (inner.size.toList ++ " > maxlen - pos:".toList) := by
            simp
          exact .of_length listed dynamic (undotted inner listed dynamic) shape (by simp)
            ⟨by simp, by simp, not_infix_in (by simp)⟩ (by simp [not_isPlainPart])
        · -- the two lines end differently
          intro name same
          have ends := congrArg (fun text : String => text.toList.reverse) same
          simp [pythonWording] at ends

end Lines

/-! ### Steps -/

/-- **The step of a member is one for lengths.** -/
theorem isStep_decodeStep {member : Member} (read : member.ReadFrom Source.Dotted)
    (name : Undotted member.name) {lines : List Line}
    (written : decodeStep (.ofMember member) = .ok lines) : pythonWording.IsStep member lines := by
  have undotted : ∀ dimension ∈ member.dimensions, dimension.isConstant = false →
      Undotted dimension.size :=
    fun dimension listed => .of_written (read.dimensions dimension listed)
  have outline := skeleton_decodeStep read.type written
  obtain ⟨call, value, moved, called, rfl, chosen, shape⟩ := decodeStep_eq_ok written
  have plain : '.' ∉ value.toList ∧ '=' ∉ value.toList := by
    rw [chosen]
    split <;> exact ⟨by simp, by simp⟩
  have acts : ∀ line ∈ moved, pythonWording.Acts member line.text := by
    rcases shape with ⟨-, rfl⟩ | ⟨-, loops, filled, rfl⟩
    · exact List.forall_mem_append.mpr
        ⟨acts_readingLines called, List.forall_mem_singleton.mpr (acts_target name plain.1)⟩
    · have inside := acts_fillingLoops undotted (fun _ listed => listed) plain.1 plain.2
        (acts_readingLines called) filled
      have start : pythonWording.Acts member "_t0 = []" := acts_list 0
      exact List.forall_mem_append.mpr ⟨List.forall_mem_cons.mpr ⟨start, inside⟩,
        List.forall_mem_singleton.mpr (acts_target name (by simp))⟩
  rw [List.append_assoc] at outline ⊢
  refine Wording.isStep_of_guards isRegular_pythonWording undotted
    (List.forall_mem_append.mpr ⟨acts_boundCheck undotted, acts⟩) outline ?_
  intro scalar integer
  obtain ⟨-, rfl⟩ := shape.resolve_right fun array => array.1 scalar
  have primitive : (FieldStep.ofMember member).member.isPrimitive = true := by
    change member.type.isPrimitive = true
    cases type : member.type with
    | primitive p => rfl
    | compound other =>
        rw [type] at integer
        cases integer
  have stored : "msg." ++ member.name ++ " = " ++ value = pythonWording.stored member.name := by
    rw [chosen, if_pos primitive, String.append_assoc]
    rfl
  refine ⟨boundCheck (.ofMember member) ++ readingLines call, ?_⟩
  rw [List.append_assoc, ← stored]
  rfl

/-- The steps of some members are steps for lengths. -/
theorem isStep_of_steps {members : List Member} {steps : List (List Line)}
    (read : ∀ member ∈ members, member.ReadFrom Source.Dotted)
    (names : ∀ member ∈ members, Undotted member.name)
    (written : (members.map FieldStep.ofMember).mapM decodeStep = .ok steps) :
    List.Forall₂ pythonWording.IsStep members steps := by
  rw [List.mapM_map] at written
  exact Outcome.forall₂_of_mapM
    (fun member present _ => isStep_decodeStep (read member present) (names member present)) written

/-! ### Decoders -/

/-- The steps of a decoder stand between the lines that start a message and those that end it. -/
theorem decoderBody_of_steps {members : List Member} {steps : List (List Line)}
    (facts : List.Forall₂ pythonWording.IsStep members steps) (className : String) :
    deeper (deeper (occupied (decoderBody className steps))) =
      [⟨2, "msgs = []"⟩, ⟨2, "for _ in range(elems):"⟩, ⟨3, "msg = " ++ className ++ "()"⟩] ++
        sunk 3 steps.flatten ++ [⟨3, "msgs.append(msg)"⟩, ⟨2, "return pos, msgs"⟩] := by
  have inner : ∀ line ∈ plain ("msg = " ++ className ++ "()") :: steps.flatten ++
      [plain "msgs.append(msg)"], line.text ≠ "" :=
    List.forall_mem_append.mpr ⟨List.forall_mem_cons.mpr
      ⟨by simp [plain], Wording.written_of_steps facts⟩, by simp [plain]⟩
  have full : occupied (decoderBody className steps) = decoderBody className steps := by
    rw [decoderBody, occupied_append, occupied_append, occupied_block (by simp),
      occupied_eq_self inner]
    rfl
  have moved : sunk 3 steps.flatten = deeper (deeper (deeper steps.flatten)) := by
    simp only [deeper_eq_sunk, sunk_sunk]
  rw [full, moved, decoderBody]
  generalize steps.flatten = body
  simp [block, plain, Line.deeper]

private theorem around_start : pythonWording.Around "msgs = []" := by
  have unmarked : readPython .decode "msgs = []" = none :=
    readPython_eq_none (head_ofList _ _) (by decide) (by decide)
  exact .of_undotted unmarked (by simp)

private theorem around_messages : pythonWording.Around "for _ in range(elems):" := by
  have unmarked : readPython .decode "for _ in range(elems):" = none := by
    simp [readPython, readLoop, pythonTarget, List.isPrefixOf?]
  exact .of_undotted unmarked (by simp)

private theorem around_message {className : String} (undotted : '.' ∉ className.toList) :
    pythonWording.Around ("msg = " ++ className ++ "()") := by
  have starts : ("msg = " ++ className ++ "()").toList.head? = some 'm' := by simp
  have unmarked : readPython .decode ("msg = " ++ className ++ "()") = none :=
    readPython_eq_none starts (by decide) (by decide)
  refine .of_undotted unmarked ?_
  simp [undotted]

private theorem around_gathered : pythonWording.Around "msgs.append(msg)" := by
  have starts : "msgs.append(msg)".toList.head? = some 'm' := by simp
  have unmarked : readPython .decode "msgs.append(msg)" = none :=
    readPython_eq_none starts (by decide) (by decide)
  exact .of_flat unmarked (not_opensBlock_of_head starts (by decide) (by decide) (by decide))
    (by simp)

private theorem around_end : pythonWording.Around "return pos, msgs" := by
  have unmarked : readPython .decode "return pos, msgs" = none :=
    readPython_eq_none (head_ofList _ _) (by decide) (by decide)
  exact .of_undotted unmarked (by simp)

/-- **Python decoders read lengths before they use them.** -/
theorem lengthsFirst_pythonDecoder {texts : List String} {schema : Schema} {source : Option String}
    {cache : FingerprintCache} {text : String} (read : Schema.ofTexts texts = .ok schema)
    (written : (pythonModule schema source cache).1 = .ok text) {struct : Struct}
    (listed : struct ∈ schema.structs) :
    pythonWording.LengthsFirst struct (pythonDecoder (flatName struct.name) text) := by
  obtain ⟨steps, stepsWritten, shape⟩ :=
    pythonDecoder_of_pythonModule read written (nodup_classNames written) listed
  have members := (Schema.readFrom_of_ofTexts read struct listed).members
  have names := undotted_of_ofTexts read listed
  have facts : List.Forall₂ pythonWording.IsStep struct.members steps :=
    isStep_of_steps members names stepsWritten
  have sound : struct.Sound schema.names :=
    (Schema.validate_eq_ok_iff.mp (Schema.ofTexts_eq_ok_iff.mp read).2).2 struct listed
  rw [shape, decoderBody_of_steps facts]
  refine Wording.lengthsFirst_of_steps sound facts ?_ ?_
  · exact List.forall_mem_cons.mpr ⟨around_start, List.forall_mem_cons.mpr ⟨around_messages,
      List.forall_mem_singleton.mpr (around_message (not_mem_flatName_dot struct.name))⟩⟩
  · exact List.forall_mem_cons.mpr ⟨around_gathered, List.forall_mem_singleton.mpr around_end⟩

end Wireform.Backend
