import Wireform.Backend.MatlabFiles
import Wireform.Backend.PythonModule
import Wireform.Proofs.Outcome

/-! # What the writers of the backends put together

A writer of a backend gives up as soon as a number cannot be written, so what it returns was put
together from results of the writers that it calls. The lemmas here say from which results and in
which way, one lemma for each writer that calls several others or chooses between them. Facts about
generated code are proved along these lemmas.
-/

namespace Wireform.Backend

/-! ### Extents and first values -/

/-- The text of an extent is a numeral, or an attribute of the owner. -/
theorem extentText_cases {owner text : String} {dimension : Dimension}
    (written : extentText owner dimension = .ok text) :
    (dimension.isConstant = true ∧
        ∃ value, dimension.extent = .ok value ∧ Numeral.write value = .ok text) ∨
      (dimension.isConstant = false ∧ text = owner ++ "." ++ dimension.size) := by
  unfold extentText at written
  split at written
  · next constant => exact .inl ⟨constant, Outcome.bind_eq_ok.mp written⟩
  · next dynamic =>
      exact .inr ⟨Bool.eq_false_iff.mpr dynamic, (Outcome.pure_eq_ok.mp written).symm⟩

/-- The first value of an array is a comprehension over that of its rows, or an empty list. -/
theorem defaultValue_cons_eq_ok {type : FieldType} {dimension : Dimension} {rest : List Dimension}
    {text : String} (written : defaultValue type (dimension :: rest) = .ok text) :
    (∃ inner value extent, defaultValue type rest = .ok inner ∧
        Numeral.write value = .ok extent ∧
        text = "[" ++ inner ++ " for _ in range(" ++ extent ++ ")]") ∨
      text = "[]" := by
  unfold defaultValue at written
  split at written
  · obtain ⟨inner, innerWritten, after⟩ := Outcome.bind_eq_ok.mp written
    obtain ⟨value, -, after⟩ := Outcome.bind_eq_ok.mp after
    obtain ⟨extent, numeral, made⟩ := Outcome.returning_eq_ok.mp after
    exact .inl ⟨inner, value, extent, innerWritten, numeral, made⟩
  · exact .inr (Outcome.pure_eq_ok.mp written).symm

/-! ### Loops -/

section Loops

variable {owner : String} {body lines : List Line} {level : Nat} {dimension : Dimension}
  {rest : List Dimension}

/-- The outermost of the loops that check lengths is a test of a length and a loop over it. -/
theorem checkedLoops_cons_eq_ok {member : String} {fail : Line}
    (written : checkedLoops owner member fail body level (dimension :: rest) = .ok lines) :
    ∃ extent inner, extentText owner dimension = .ok extent ∧
      checkedLoops owner member fail body (level + 1) rest = .ok inner ∧
      lines = block ("if len(" ++ elementText owner member level ++ ") < " ++ extent ++ ":") [fail]
        ++ block ("for d" ++ toString level ++ " in range(" ++ extent ++ "):") inner := by
  obtain ⟨extent, extentWritten, after⟩ := Outcome.bind_eq_ok.mp written
  obtain ⟨inner, innerWritten, made⟩ := Outcome.returning_eq_ok.mp after
  exact ⟨extent, inner, extentWritten, innerWritten, made⟩

/-- A loop that fills a list ends by adding an item: the value that was read, or the list that the
loop below has filled. -/
theorem fillingLoops_cons_eq_ok {value : String}
    (written : fillingLoops owner body value level (dimension :: rest) = .ok lines) :
    ∃ extent filling item, extentText owner dimension = .ok extent ∧
      lines = block ("for d" ++ toString level ++ " in range(" ++ extent ++ "):")
        (filling ++ [plain ("_t" ++ toString level ++ ".append(" ++ item ++ ")")]) ∧
      (rest = [] ∧ filling = body ∧ item = value ∨
        ∃ inner, fillingLoops owner body value (level + 1) rest = .ok inner ∧
          filling = plain ("_t" ++ toString (level + 1) ++ " = []") :: inner ∧
          item = "_t" ++ toString (level + 1)) := by
  cases rest with
  | nil =>
      obtain ⟨extent, extentWritten, rfl⟩ := Outcome.returning_eq_ok.mp written
      exact ⟨extent, body, value, extentWritten, rfl, .inl ⟨rfl, rfl, rfl⟩⟩
  | cons next rest =>
      obtain ⟨extent, extentWritten, after⟩ := Outcome.bind_eq_ok.mp written
      obtain ⟨inner, innerWritten, rfl⟩ := Outcome.returning_eq_ok.mp after
      exact ⟨extent, _, _, extentWritten, rfl, .inr ⟨inner, innerWritten, rfl, rfl⟩⟩

/-- The outermost of the loops that count is a closed block over its extent. -/
theorem countedLoops_cons_eq_ok
    (written : countedLoops owner body level (dimension :: rest) = .ok lines) :
    ∃ extent inner, matlabExtent owner dimension = .ok extent ∧
      countedLoops owner body (level + 1) rest = .ok inner ∧
      lines = closedBlock ("for dx" ++ toString level ++ " = 1:" ++ extent) inner "end" := by
  obtain ⟨extent, extentWritten, after⟩ := Outcome.bind_eq_ok.mp written
  obtain ⟨inner, innerWritten, made⟩ := Outcome.returning_eq_ok.mp after
  exact ⟨extent, inner, extentWritten, innerWritten, made⟩

end Loops

/-! ### Calls -/

private theorem packer_eq_ok {p : Primitive} {name : String} :
    packer p = .ok name ↔ packer? p = some name := by
  unfold packer
  cases packer? p <;> simp

/-- A call that writes an element is one of three, for strings, for packed values and for
instances. -/
theorem encodeCall_cases {type : FieldType} {value call : String}
    (written : encodeCall type value = .ok call) :
    (type = .primitive .string ∧ call = "_encode_string(buf, pos, maxlen, " ++ value ++ ")") ∨
      (∃ p name, type = .primitive p ∧ packer? p = some name ∧
        call = "_encode_value(buf, pos, maxlen, " ++ name ++ ", " ++ value ++ ")") ∨
      ∃ name, type = .compound name ∧
        call = flatName name ++ "._encode_nohash(buf, pos, maxlen, [" ++ value ++ "], 1)" := by
  unfold encodeCall at written
  split at written
  · exact .inl ⟨rfl, (Outcome.pure_eq_ok.mp written).symm⟩
  · next p _ =>
      obtain ⟨name, found, rfl⟩ := Outcome.returning_eq_ok.mp written
      exact .inr (.inl ⟨p, name, rfl, packer_eq_ok.mp found, rfl⟩)
  · next name => exact .inr (.inr ⟨name, rfl, (Outcome.pure_eq_ok.mp written).symm⟩)

/-- A call that reads an element is one of three, for strings, for packed values and for
instances. -/
theorem decodeCall_cases {type : FieldType} {call : String}
    (written : decodeCall type = .ok call) :
    (type = .primitive .string ∧ call = "_decode_string(buf, pos, maxlen)") ∨
      (∃ p name, type = .primitive p ∧ packer? p = some name ∧
        call = "_decode_value(buf, pos, maxlen, " ++ name ++ ")") ∨
      ∃ name, type = .compound name ∧
        call = flatName name ++ "._decode_nohash(buf, pos, maxlen, 1)" := by
  unfold decodeCall at written
  split at written
  · exact .inl ⟨rfl, (Outcome.pure_eq_ok.mp written).symm⟩
  · next p _ =>
      obtain ⟨name, found, rfl⟩ := Outcome.returning_eq_ok.mp written
      exact .inr (.inl ⟨p, name, rfl, packer_eq_ok.mp found, rfl⟩)
  · next name => exact .inr (.inr ⟨name, rfl, (Outcome.pure_eq_ok.mp written).symm⟩)

/-! ### Steps -/

/-- Each step of a codec is that of a member. -/
theorem exists_of_mem_steps {Fault : Type} {write : FieldStep → Except Fault (List Line)}
    {members : List Member} {steps : List (List Line)}
    (written : (members.map FieldStep.ofMember).mapM write = .ok steps) {lines : List Line}
    (present : lines ∈ steps) : ∃ member ∈ members, write (.ofMember member) = .ok lines := by
  obtain ⟨step, planned, stepWritten⟩ := Outcome.exists_of_mem_mapM written present
  obtain ⟨member, listed, rfl⟩ := List.mem_map.mp planned
  exact ⟨member, listed, stepWritten⟩

section Steps

variable {step : FieldStep} {lines : List Line}

/-- The lines that write one element by a call and check the position after it. -/
def writingLines (call : String) : List Line :=
  plain ("pos = " ++ call) :: block "if pos < 0:" [plain "return -1"]

/-- The lines that read one element by a call and check the position after it. -/
def readingLines (call : String) : List Line :=
  plain ("pos, _v = " ++ call) :: block "if pos < 0:" [plain "return -1, None"]

/-- The lines that write a member check its lengths and write its elements in loops. -/
theorem encodeStep_eq_ok (written : encodeStep step = .ok lines) :
    ∃ call loops,
      encodeCall step.member.type (elementText "msg" step.member.name step.loops.length) =
        .ok call ∧
      checkedLoops "msg" step.member.name (plain "return -1") (writingLines call) 0 step.loops =
        .ok loops ∧
      lines = lengthChecks step "return -1" ++ loops := by
  obtain ⟨call, called, after⟩ := Outcome.bind_eq_ok.mp written
  obtain ⟨loops, looped, made⟩ := Outcome.returning_eq_ok.mp after
  exact ⟨call, loops, called, Outcome.mapError_eq_ok.mp looped, made⟩

/-- The lines that read a member are those of a scalar, or fill lists in loops. -/
theorem decodeStep_eq_ok (written : decodeStep step = .ok lines) :
    ∃ call value moved, decodeCall step.member.type = .ok call ∧
      lines = lengthChecks step "return -1, None" ++ boundCheck step ++ moved ∧
      value = (if step.member.isPrimitive then "_v" else "_v[0]") ∧
      (step.loops = [] ∧ moved = readingLines call ++
          [plain ("msg." ++ step.member.name ++ " = " ++ value)] ∨
        step.loops ≠ [] ∧ ∃ loops,
          fillingLoops "msg" (readingLines call) value 0 step.loops = .ok loops ∧
          moved = plain "_t0 = []" :: loops ++
            [plain ("msg." ++ step.member.name ++ " = " ++ "_t0")]) := by
  obtain ⟨call, called, after⟩ := Outcome.bind_eq_ok.mp written
  dsimp only at after
  split at after
  · next scalar =>
      obtain rfl := Except.ok.inj after
      exact ⟨call, _, _, called, rfl, rfl, .inl ⟨List.isEmpty_iff.mp scalar, rfl⟩⟩
  · next array =>
      obtain ⟨loops, filled, made⟩ := Outcome.bind_eq_ok.mp after
      obtain rfl := Except.ok.inj made
      exact ⟨call, _, _, called, rfl, rfl, .inr ⟨fun empty => array (List.isEmpty_iff.mpr empty),
        loops, Outcome.mapError_eq_ok.mp filled, rfl⟩⟩

end Steps

/-! ### Classes -/

section Classes

variable {plan : TypePlan} {lines : List Line}

/-- A constructor assigns its first value to each member. -/
theorem initMethod_eq_ok {struct : Struct} (written : initMethod struct = .ok lines) :
    ∃ assignments, lines = block "def __init__(self):" assignments ++ [Line.blank] ∧
      (struct.members ≠ [] → assignments ≠ []) ∧
      ∀ line ∈ assignments, ∃ member ∈ struct.members, ∃ value,
        defaultValue member.type member.dimensions = .ok value ∧
          line = plain ("self." ++ member.name ++ " = " ++ value) := by
  obtain ⟨assignments, assigned, rfl⟩ := Outcome.returning_eq_ok.mp written
  refine ⟨assignments, rfl, fun some none => ?_, fun line present => ?_⟩
  · obtain ⟨member, rest, shape⟩ := List.exists_cons_of_ne_nil some
    obtain ⟨line, present, -⟩ := Outcome.mem_of_mapM assigned (shape ▸ List.mem_cons_self)
    exact List.ne_nil_of_mem present none
  · obtain ⟨member, listed, lineWritten⟩ := Outcome.exists_of_mem_mapM assigned present
    exact ⟨member, listed, Outcome.returning_eq_ok.mp lineWritten⟩

/-- The line that starts the sum of a size lists the members that are known beforehand, if there are
any. -/
theorem sizeStart_eq_ok {size : SizePlan} {line : Line} (written : sizeStart size = .ok line) :
    line = plain "size = 0" ∨
      ∃ bytes, Numeral.write size.constantBytes = .ok bytes ∧
        line = plain ("size = " ++ bytes ++ "  # " ++
          String.intercalate ", " (size.constantTerms.map (·.member.name))) := by
  unfold sizeStart at written
  dsimp only at written
  split at written
  · exact .inl (Outcome.pure_eq_ok.mp written).symm
  · exact .inr (Outcome.returning_eq_ok.mp written)

/-- The methods of the size add one step for each member to a start. -/
theorem sizeMethods_eq_ok (written : sizeMethods plan = .ok lines) :
    ∃ start steps, sizeStart plan.size = .ok start ∧
      plan.size.elementTerms.mapM (sizeStep plan.struct.name) = .ok steps ∧
      lines = block "def encoded_size(self):" [plain "return 8 + self._encoded_size_nohash()"]
        ++ [Line.blank]
        ++ block "def _encoded_size_nohash(self):" (start :: steps.flatten ++ [plain "return size"])
        ++ [Line.blank] := by
  obtain ⟨start, startWritten, after⟩ := Outcome.bind_eq_ok.mp written
  obtain ⟨steps, stepsWritten, made⟩ := Outcome.returning_eq_ok.mp after
  exact ⟨start, steps, startWritten, stepsWritten, made⟩

/-- A class holds its description, its slots, its hash, and its methods. -/
theorem classLines_eq_ok (written : classLines plan = .ok lines) :
    ∃ init size encode decode, initMethod plan.struct = .ok init ∧ sizeMethods plan = .ok size ∧
      encodeMethods plan = .ok encode ∧ decodeMethods plan = .ok decode ∧
      lines = block ("class " ++ flatName plan.struct.name ++ "(object):")
        ([plain ("\"\"\"LCM type " ++ plan.struct.name ++ ", fingerprint 0x"
            ++ Text.hexText 16 plan.fingerprint.toNat ++ ".\"\"\""),
          Line.blank,
          plain ("__slots__ = [" ++ String.intercalate ", "
            (plan.struct.members.map fun member => "\"" ++ member.name ++ "\"") ++ "]"),
          Line.blank,
          plain "_hash = None",
          Line.blank]
          ++ init ++ valueMethods plan.struct ++ hashMethods plan ++ size ++ encode ++ decode) := by
  obtain ⟨init, initWritten, after⟩ := Outcome.bind_eq_ok.mp written
  obtain ⟨size, sizeWritten, after⟩ := Outcome.bind_eq_ok.mp after
  obtain ⟨encode, encodeWritten, after⟩ := Outcome.bind_eq_ok.mp after
  obtain ⟨decode, decodeWritten, made⟩ := Outcome.returning_eq_ok.mp after
  exact ⟨init, size, encode, decode, Outcome.mapError_eq_ok.mp initWritten,
    Outcome.mapError_eq_ok.mp sizeWritten, encodeWritten, decodeWritten, made⟩

end Classes

/-! ### Modules and files -/

/-- A module is the layout of the lines of the plans. -/
theorem pythonModule_eq_ok {schema : Schema} {source : Option String} {cache : FingerprintCache}
    {text : String} (written : (pythonModule schema source cache).1 = .ok text) :
    ∃ plans after lines, schema.plans cache = (.ok plans, after) ∧
      moduleLines source plans = .ok lines ∧ text = layOut lines := by
  unfold pythonModule at written
  split at written
  · cases written
  · split at written
    · cases written
    · next plans after planned =>
        split at written
        · cases written
        · next lines made =>
            exact ⟨plans, after, lines, planned, made, (Except.ok.inj written).symm⟩

/-- The files of a struct from the texts of those that hold the codecs of its members. -/
theorem structFiles_parts {plan : TypePlan} {files : List (String × String)}
    (written : structFiles plan = .ok files) :
    ∃ encode decode size,
      encodeMembersFile (matlabName plan.struct.name) plan = .ok encode ∧
      decodeMembersFile (matlabName plan.struct.name) plan = .ok decode ∧
      sizeMembersFile (matlabName plan.struct.name) plan = .ok size ∧
      files = [
        (matlabName plan.struct.name ++ "_new.m",
          newFile (matlabName plan.struct.name) plan.struct),
        (matlabName plan.struct.name ++ "_encode.m", encodeFile (matlabName plan.struct.name)),
        (matlabName plan.struct.name ++ "_decode.m", decodeFile (matlabName plan.struct.name)),
        (matlabName plan.struct.name ++ "_encodedSize.m", sizeFile (matlabName plan.struct.name)),
        (matlabName plan.struct.name ++ "_hash.m", hashFile (matlabName plan.struct.name)),
        (matlabName plan.struct.name ++ "_encode_nohash.m", encode),
        (matlabName plan.struct.name ++ "_decode_nohash.m", decode),
        (matlabName plan.struct.name ++ "_encodedSize_nohash.m", size),
        (matlabName plan.struct.name ++ "_computeHash.m",
          computeHashFile (matlabName plan.struct.name) plan)] := by
  obtain ⟨encode, encodeWritten, after⟩ := Outcome.bind_eq_ok.mp written
  obtain ⟨decode, decodeWritten, after⟩ := Outcome.bind_eq_ok.mp after
  obtain ⟨size, sizeWritten, made⟩ := Outcome.returning_eq_ok.mp after
  exact ⟨encode, decode, size, encodeWritten, decodeWritten, sizeWritten, made⟩

/-- The files of a schema are those of its plans, a later file in place of an earlier one of its
name. -/
theorem matlabFiles_eq_ok {schema : Schema} {cache : FingerprintCache}
    {files : List (String × String)} (written : (matlabFiles schema cache).1 = .ok files) :
    ∃ plans after parts, schema.plans cache = (.ok plans, after) ∧
      plans.mapM structFiles = .ok parts ∧ files = Pairs.setAll [] parts.flatten := by
  unfold matlabFiles at written
  split at written
  · cases written
  · next plans after planned =>
      split at written
      · cases written
      · next parts made =>
          exact ⟨plans, after, parts, planned, made, (Except.ok.inj written).symm⟩

end Wireform.Backend
