import Wireform.Proofs.Backend.PythonText

/-! # Skeletons of generated Python codecs

The skeleton of the encoder or the decoder of a class is read off the text of the module: the body
of the method is found below its header, and of its lines those count that open the loop of a
dimension or transfer an element. The lines that write a member and the lines that read it both
follow the outline of the member (`Wireform.Backend.skeleton_encodeStep`,
`Wireform.Backend.skeleton_decodeStep`): the checks, the lists under construction and the
assignments that stand between these lines differ, and none of them is taken for one of these lines.
So the methods of both directions follow the outline of the struct
(`Wireform.Backend.followsOutline_encodeMethods`, `Wireform.Backend.followsOutline_decodeMethods`).
-/

namespace Wireform.Backend

/-! ### Reading a line -/

/-- What a line of a Python codec transfers. -/
inductive PythonElement where
  | packed (packer : String)
  | string
  | instanceOf (className : String)
  deriving DecidableEq, Repr

/-- The element that Python code transfers for a type. The one primitive without a packer is that of
strings. -/
def pythonElement : FieldType → PythonElement
  | .primitive p =>
      match packer? p with
      | some packer => .packed packer
      | none => .string
  | .compound name => .instanceOf (flatName name)

/-- The function for strings. -/
def stringCodec : Direction → String
  | .encode => "_encode_string"
  | .decode => "_decode_string"

/-- The function for packed values. -/
def packedCodec : Direction → String
  | .encode => "_encode_value"
  | .decode => "_decode_value"

/-- The method for instances, after the class. -/
def instanceCodec : Direction → String
  | .encode => "._encode_nohash"
  | .decode => "._decode_nohash"

/-- The variables to which the line of a transfer assigns. -/
def pythonTarget : Direction → String
  | .encode => "pos = "
  | .decode => "pos, _v = "

/-- Reads off a call what it transfers: the function says whether it is a string, a packed value,
named by the argument after the buffer, or an instance of a class. -/
def readPythonCall (direction : Direction) (call : List Char) : Option PythonElement :=
  let callee := call.takeWhile (· != '(')
  if callee = (stringCodec direction).toList then some .string
  else if callee = (packedCodec direction).toList then do
    let arguments ← "(buf, pos, maxlen, ".toList.isPrefixOf? (call.dropWhile (· != '('))
    return .packed (String.ofList (arguments.takeWhile fun c => c != ',' && c != ')'))
  else do
    let className ← (instanceCodec direction).toList.isSuffixOf? callee
    return .instanceOf (String.ofList className)

/-- Reads a line of a Python codec. -/
def readPython (direction : Direction) (text : String) : Option (Mark PythonElement) :=
  match readLoop "msg" "for d" " in range(" "):" text.toList with
  | some loop => some loop
  | none => do
      let call ← (pythonTarget direction).toList.isPrefixOf? text.toList
      return .transfer (← readPythonCall direction call)

/-- The header of the method that transfers the members. -/
def pythonHeader : Direction → String
  | .encode => "def _encode_nohash(buf, pos, maxlen, msgs, elems):"
  | .decode => "def _decode_nohash(buf, pos, maxlen, elems):"

/-- The skeleton of the codec of a class in the text of a module. -/
def pythonSkeleton (direction : Direction) (className text : String) :
    List (SkeletonLine PythonElement) :=
  skeleton (readPython direction) <|
    blockUnder ⟨1, pythonHeader direction⟩ <|
      blockUnder ⟨0, classHeader className⟩ (codeLines text)

private theorem isOwner_msg : IsOwner "msg" := ⟨'m', ['s', 'g'], rfl, rfl, by decide⟩

/-- Only a line that starts like a loop or like an assignment to the position has a mark. -/
theorem readPython_eq_none {direction : Direction} {text : String} {c : Char}
    (starts : text.toList.head? = some c) (noLoop : c ≠ 'f') (noCall : c ≠ 'p') :
    readPython direction text = none := by
  obtain ⟨rest, shape⟩ : ∃ rest, text.toList = c :: rest :=
    List.head?_eq_some_iff.mp starts
  cases direction <;>
    simp [readPython, readLoop, pythonTarget, shape, List.isPrefixOf?, Ne.symm noLoop,
      Ne.symm noCall]

private theorem readPython_loop (direction : Direction) (level : Nat) {dimension : Dimension}
    {extent : Extent} (found : Extent.ofDimension dimension = .ok extent) :
    readPython direction
        ("for d" ++ toString level ++ " in range(" ++ extent.text "msg" ++ "):") =
      some (.loop (toString level) extent) := by
  unfold readPython
  rw [readLoop_written isOwner_msg "for d" " in range(" "):" rfl rfl level found]

private theorem readPython_transfer (direction : Direction) (call : String) :
    readPython direction (pythonTarget direction ++ call) =
      (readPythonCall direction call.toList).map .transfer := by
  have assigns : readLoop "msg" "for d" " in range(" "):" (pythonTarget direction ++ call).toList =
      (none : Option (Mark PythonElement)) := by
    cases direction <;> simp [readLoop, pythonTarget, List.isPrefixOf?]
  unfold readPython
  rw [assigns, String.toList_append, isPrefixOf?_append]
  simp only [Option.bind_eq_bind, Option.bind_some, Option.map_eq_bind]
  rfl

private theorem readPythonCall_string (direction : Direction) (arguments : List Char) :
    readPythonCall direction ((stringCodec direction).toList ++ '(' :: arguments) =
      some .string := by
  have closed : '(' ∉ (stringCodec direction).toList := by
    cases direction <;> simp [stringCodec]
  simp only [readPythonCall, (Text.takeWhile_bne closed _).1, ↓reduceIte]

/-- A call for packed values is read off as a value of its packer. -/
theorem readPythonCall_packed (direction : Direction) {p : Primitive} {packer : String}
    (packed : packer? p = some packer) {c : Char} (ends : c = ',' ∨ c = ')')
    (arguments : List Char) :
    readPythonCall direction
        ((packedCodec direction).toList ++
          '(' :: ("buf, pos, maxlen, ".toList ++ (packer.toList ++ c :: arguments))) =
      some (.packed packer) := by
  have closed : '(' ∉ (packedCodec direction).toList := by
    cases direction <;> simp [packedCodec]
  have noString : (packedCodec direction).toList ≠ (stringCodec direction).toList := by
    cases direction <;> simp [packedCodec, stringCodec]
  have inside : ∀ d ∈ packer.toList, (d != ',' && d != ')') = true := by
    cases p <;> cases packed <;> simp
  have stops : (c != ',' && c != ')') = false := by
    rcases ends with rfl | rfl <;> rfl
  have opened : '(' :: ("buf, pos, maxlen, ".toList ++ (packer.toList ++ c :: arguments)) =
      "(buf, pos, maxlen, ".toList ++ (packer.toList ++ c :: arguments) := by
    simp
  obtain ⟨callee, behind⟩ := Text.takeWhile_bne closed
    ("buf, pos, maxlen, ".toList ++ (packer.toList ++ c :: arguments))
  unfold readPythonCall
  rw [callee, behind, opened, isPrefixOf?_append]
  simp only [noString, ↓reduceIte, Option.bind_eq_bind, Option.bind_some,
    (Text.takeWhile_of_ends inside (Text.ends_cons.mpr stops)).1, String.ofList_toList]
  rfl

/-- A call of the codec of a class is read off as an instance of the class. -/
theorem readPythonCall_instance (direction : Direction) {name : String}
    (dotted : Source.Dotted name) (arguments : List Char) :
    readPythonCall direction
        ((flatName name).toList ++ (instanceCodec direction).toList ++ '(' :: arguments) =
      some (.instanceOf (flatName name)) := by
  have closed : '(' ∉ (flatName name).toList ++ (instanceCodec direction).toList := by
    rw [List.mem_append, not_or]
    exact ⟨not_mem_flatName dotted rfl, by cases direction <;> simp [instanceCodec]⟩
  -- the dot of the method tells it from the functions of the prelude
  have method : '.' ∈ (flatName name).toList ++ (instanceCodec direction).toList :=
    List.mem_append_right _ (by cases direction <;> simp [instanceCodec])
  have noString : (flatName name).toList ++ (instanceCodec direction).toList ≠
      (stringCodec direction).toList := by
    intro same
    rw [same] at method
    cases direction <;> simp [stringCodec] at method
  have noValue : (flatName name).toList ++ (instanceCodec direction).toList ≠
      (packedCodec direction).toList := by
    intro same
    rw [same] at method
    cases direction <;> simp [packedCodec] at method
  unfold readPythonCall
  rw [(Text.takeWhile_bne closed _).1]
  simp only [noString, noValue, ↓reduceIte, isSuffixOf?_append, Option.bind_eq_bind,
    Option.bind_some, String.ofList_toList]
  rfl

private theorem pythonElement_of_packed {p : Primitive} {packer : String}
    (packed : packer? p = some packer) : pythonElement (.primitive p) = .packed packer := by
  simp only [pythonElement, packed]

private theorem readPythonCall_encodeCall {type : FieldType} {value call : String}
    (dotted : ∀ name, type = .compound name → Source.Dotted name)
    (written : encodeCall type value = .ok call) :
    readPythonCall .encode call.toList = some (pythonElement type) := by
  rcases encodeCall_cases written with
    ⟨rfl, rfl⟩ | ⟨p, packer, rfl, packed, rfl⟩ | ⟨name, rfl, rfl⟩
  · have split : ("_encode_string(buf, pos, maxlen, " ++ value ++ ")").toList =
        "_encode_string".toList ++ '(' :: ("buf, pos, maxlen, " ++ value ++ ")").toList := by
      simp
    rw [split]
    exact readPythonCall_string .encode _
  · have split : ("_encode_value(buf, pos, maxlen, " ++ packer ++ ", " ++ value ++ ")").toList =
        "_encode_value".toList ++ '(' :: ("buf, pos, maxlen, ".toList ++
          (packer.toList ++ ',' :: (" " ++ value ++ ")").toList)) := by
      simp
    rw [split, pythonElement_of_packed packed]
    exact readPythonCall_packed .encode packed (.inl rfl) _
  · have split :
        (flatName name ++ "._encode_nohash(buf, pos, maxlen, [" ++ value ++ "], 1)").toList =
        (flatName name).toList ++ "._encode_nohash".toList ++
          '(' :: ("buf, pos, maxlen, [" ++ value ++ "], 1)").toList := by
      simp
    rw [split]
    exact readPythonCall_instance .encode (dotted name rfl) _

private theorem readPythonCall_decodeCall {type : FieldType} {call : String}
    (dotted : ∀ name, type = .compound name → Source.Dotted name)
    (written : decodeCall type = .ok call) :
    readPythonCall .decode call.toList = some (pythonElement type) := by
  rcases decodeCall_cases written with
    ⟨rfl, rfl⟩ | ⟨p, packer, rfl, packed, rfl⟩ | ⟨name, rfl, rfl⟩
  · have split : "_decode_string(buf, pos, maxlen)".toList =
        "_decode_string".toList ++ '(' :: "buf, pos, maxlen)".toList := by
      simp
    rw [split]
    exact readPythonCall_string .decode _
  · have split : ("_decode_value(buf, pos, maxlen, " ++ packer ++ ")").toList =
        "_decode_value".toList ++ '(' :: ("buf, pos, maxlen, ".toList ++
          (packer.toList ++ ')' :: [])) := by
      simp
    rw [split, pythonElement_of_packed packed]
    exact readPythonCall_packed .decode packed (.inr rfl) _
  · have split : (flatName name ++ "._decode_nohash(buf, pos, maxlen, 1)").toList =
        (flatName name).toList ++ "._decode_nohash".toList ++
          '(' :: "buf, pos, maxlen, 1)".toList := by
      simp
    rw [split]
    exact readPythonCall_instance .decode (dotted name rfl) _

/-- Giving up has no mark in either direction. -/
theorem readPython_refusal :
    readPython .encode "return -1" = none ∧ readPython .decode "return -1, None" = none :=
  ⟨readPython_eq_none (head_ofList _ _) (by decide) (by decide),
    readPython_eq_none (head_ofList _ _) (by decide)
      (by decide)⟩

/-! ### Steps -/

private theorem skeleton_lengthChecks {direction : Direction} {fail : String}
    (unmarked : readPython direction fail = none) (step : FieldStep) :
    skeleton (readPython direction) (lengthChecks step fail) = [] := by
  apply skeleton_eq_nil
  intro line member
  obtain ⟨length, -, inside⟩ := List.mem_flatMap.mp member
  simp only [block, deeper_cons, deeper_nil, List.mem_cons, List.not_mem_nil, or_false] at inside
  rcases inside with rfl | rfl
  · have starts : ("if msg." ++ length ++ " < 0:").toList.head? = some 'i' := by simp
    exact readPython_eq_none starts (by decide) (by decide)
  · exact unmarked

private theorem skeleton_boundCheck (step : FieldStep) :
    skeleton (readPython .decode) (boundCheck step) = [] := by
  unfold boundCheck
  split
  · rfl
  · next length _ =>
      split
      · rfl
      · have starts : ("if msg." ++ length ++ " > maxlen - pos:").toList.head? = some 'i' := by
          simp
        rw [skeleton_block_of_none _ (readPython_eq_none starts (by decide) (by decide)),
          skeleton_plain_of_none _ readPython_refusal.2]
        rfl

/-- The skeleton of a body below checked loops is the outline of the transfer. -/
theorem skeleton_checkedLoops {type : FieldType} {member : String} {body lines : List Line}
    {level : Nat} {dimensions : List Dimension}
    (transfer : skeleton (readPython .encode) body = [⟨0, .transfer (pythonElement type)⟩])
    (written : checkedLoops "msg" member (plain "return -1") body level dimensions = .ok lines) :
    ∃ outline, outlineFrom type level dimensions = .ok outline ∧
      skeleton (readPython .encode) lines =
        outline.map (SkeletonLine.translate 0 pythonElement) := by
  induction dimensions generalizing level lines with
  | nil =>
      obtain rfl := Outcome.pure_eq_ok.mp written
      exact ⟨_, rfl, transfer⟩
  | cons dimension dimensions ih =>
      obtain ⟨text, inner, extentWritten, innerWritten, rfl⟩ := checkedLoops_cons_eq_ok written
      obtain ⟨extent, found, rfl⟩ := extentText_eq_ok extentWritten
      obtain ⟨outline, outlined, same⟩ := ih innerWritten
      refine ⟨_, Outcome.bind_eq_ok.mpr ⟨extent, found,
        Outcome.bind_eq_ok.mpr ⟨outline, outlined, rfl⟩⟩, ?_⟩
      have starts : ("if len(" ++ elementText "msg" member level ++ ") < " ++ extent.text "msg"
          ++ ":").toList.head? = some 'i' := by simp
      rw [skeleton_append,
        skeleton_block_of_none _ (readPython_eq_none starts (by decide) (by decide)),
        skeleton_plain_of_none _ readPython_refusal.1,
        skeleton_block_of_some _ (readPython_loop .encode level found), same]
      simp only [List.map_cons, List.map_map]
      rfl

private theorem readPython_list {direction : Direction} (text : String) :
    readPython direction ("_t" ++ text) = none :=
  readPython_eq_none (head_append (head_ofList _ _) text) (by decide) (by decide)

/-- The skeleton of a body below loops that fill lists is the outline of the transfer. -/
theorem skeleton_fillingLoops {type : FieldType} {value : String} {body lines : List Line}
    {level : Nat} {dimensions : List Dimension}
    (transfer : skeleton (readPython .decode) body = [⟨0, .transfer (pythonElement type)⟩])
    (written : fillingLoops "msg" body value level dimensions = .ok lines) :
    ∃ outline, outlineFrom type level dimensions = .ok outline ∧
      skeleton (readPython .decode) lines =
        outline.map (SkeletonLine.translate 0 pythonElement) := by
  induction dimensions generalizing level lines with
  | nil =>
      obtain rfl := Outcome.pure_eq_ok.mp written
      exact ⟨_, rfl, transfer⟩
  | cons dimension dimensions ih =>
      obtain ⟨text, filling, item, extentWritten, rfl, shape⟩ := fillingLoops_cons_eq_ok written
      obtain ⟨extent, found, rfl⟩ := extentText_eq_ok extentWritten
      have appends : readPython .decode ("_t" ++ toString level ++ ".append(" ++ item ++ ")") =
          none := by
        simp only [String.append_assoc]
        exact readPython_list _
      rw [skeleton_block_of_some _ (readPython_loop .decode level found), skeleton_append,
        skeleton_plain_of_none _ appends, skeleton_nil, List.append_nil]
      rcases shape with ⟨rfl, rfl, rfl⟩ | ⟨inner, innerWritten, rfl, rfl⟩
      · refine ⟨_, Outcome.bind_eq_ok.mpr ⟨extent, found, rfl⟩, ?_⟩
        rw [transfer]
        rfl
      · obtain ⟨outline, outlined, same⟩ := ih innerWritten
        refine ⟨_, Outcome.bind_eq_ok.mpr ⟨extent, found,
          Outcome.bind_eq_ok.mpr ⟨outline, outlined, rfl⟩⟩, ?_⟩
        have starts : readPython .decode ("_t" ++ toString (level + 1) ++ " = []") = none := by
          simp only [String.append_assoc]
          exact readPython_list _
        rw [skeleton_plain_of_none _ starts, same]
        simp only [List.map_cons, List.map_map]
        rfl

private theorem readPython_position_check (direction : Direction) :
    readPython direction "if pos < 0:" = none :=
  readPython_eq_none (head_ofList _ _) (by decide) (by decide)

/-- A transfer and the check of the position after it. -/
theorem skeleton_transfer {direction : Direction} {call refusal : String} {type : FieldType}
    (called : readPythonCall direction call.toList = some (pythonElement type))
    (refused : readPython direction refusal = none) :
    skeleton (readPython direction)
        (plain (pythonTarget direction ++ call) :: block "if pos < 0:" [plain refusal]) =
      [⟨0, .transfer (pythonElement type)⟩] := by
  have marked : readPython direction (plain (pythonTarget direction ++ call)).text =
      some (.transfer (pythonElement type)) := by
    change readPython direction (pythonTarget direction ++ call) = _
    rw [readPython_transfer, called, Option.map_some]
  rw [skeleton_cons_of_some _ marked, skeleton_block_of_none _ (readPython_position_check _),
    skeleton_plain_of_none _ refused]
  rfl

/-- **The lines that write a member follow its outline.** -/
theorem skeleton_encodeStep {step : FieldStep} {lines : List Line}
    (dotted : ∀ name, step.member.type = .compound name → Source.Dotted name)
    (written : encodeStep step = .ok lines) :
    ∃ outline, outlineFrom step.member.type 0 step.loops = .ok outline ∧
      skeleton (readPython .encode) lines =
        outline.map (SkeletonLine.translate 0 pythonElement) := by
  obtain ⟨call, loops, called, loopsWritten, rfl⟩ := encodeStep_eq_ok written
  have transfer :=
    skeleton_transfer (readPythonCall_encodeCall dotted called) readPython_refusal.1
  obtain ⟨outline, outlined, same⟩ := skeleton_checkedLoops transfer loopsWritten
  refine ⟨outline, outlined, ?_⟩
  rw [skeleton_append, skeleton_lengthChecks readPython_refusal.1, List.nil_append, same]

private theorem readPython_assignment {direction : Direction} (text : String) :
    readPython direction ("msg." ++ text) = none :=
  readPython_eq_none (head_append (head_ofList _ _) text) (by decide) (by decide)

/-- **The lines that read a member follow its outline.** -/
theorem skeleton_decodeStep {step : FieldStep} {lines : List Line}
    (dotted : ∀ name, step.member.type = .compound name → Source.Dotted name)
    (written : decodeStep step = .ok lines) :
    ∃ outline, outlineFrom step.member.type 0 step.loops = .ok outline ∧
      skeleton (readPython .decode) lines =
        outline.map (SkeletonLine.translate 0 pythonElement) := by
  have assigned : ∀ text,
      readPython .decode ("msg." ++ step.member.name ++ " = " ++ text) = none := by
    intro text
    simp only [String.append_assoc]
    exact readPython_assignment _
  obtain ⟨call, value, moved, called, rfl, -, shape⟩ := decodeStep_eq_ok written
  have transfer : skeleton (readPython .decode) (readingLines call) =
      [⟨0, .transfer (pythonElement step.member.type)⟩] :=
    skeleton_transfer (readPythonCall_decodeCall dotted called) readPython_refusal.2
  rcases shape with ⟨flat, rfl⟩ | ⟨-, loops, filled, rfl⟩
  · refine ⟨[⟨0, .transfer step.member.type⟩], flat ▸ rfl, ?_⟩
    rw [skeleton_append, skeleton_append, skeleton_lengthChecks readPython_refusal.2,
      skeleton_boundCheck, skeleton_append, transfer, skeleton_plain_of_none _ (assigned value)]
    rfl
  · obtain ⟨outline, outlined, same⟩ := skeleton_fillingLoops transfer filled
    have start : readPython .decode "_t0 = []" = none :=
      readPython_eq_none (head_ofList _ _) (by decide) (by decide)
    refine ⟨outline, outlined, ?_⟩
    rw [skeleton_append, skeleton_append, skeleton_lengthChecks readPython_refusal.2,
      skeleton_boundCheck, List.cons_append, skeleton_plain_of_none _ start, skeleton_append, same,
      skeleton_plain_of_none _ (assigned "_t0"), skeleton_nil]
    simp only [List.nil_append, List.append_nil]

/-! ### Methods -/

/-- The body of a codec: what its loop over the instances transfers is the outline of the struct,
two levels below the header of the method. -/
def FollowsOutline (direction : Direction) (struct : Struct) (body : List Line) : Prop :=
  ∃ outline, struct.outline = .ok outline ∧
    skeleton (readPython direction) body = outline.map (SkeletonLine.translate 1 pythonElement)

/-- The method that encodes a struct follows its outline. -/
theorem followsOutline_encodeMethods {plan : TypePlan} (known : ReadPlan plan) {lines : List Line}
    (written : encodeMethods plan = .ok lines) :
    ∃ before body, FollowsOutline .encode plan.struct body ∧
      lines = before ++ block (pythonHeader .encode) body ++ [Line.blank] := by
  obtain ⟨outer, steps, stepsWritten, -, rfl⟩ := encodeMethods_eq_ok known.read.name written
  rw [known.belongs.encode] at stepsWritten
  obtain ⟨outlines, outlined, same⟩ := skeleton_steps
    (fun member listed lines => skeleton_encodeStep (known.read.members member listed).type)
    stepsWritten
  refine ⟨outer, _, ⟨outlines.flatten, ?_, ?_⟩, rfl⟩
  · exact Outcome.bind_eq_ok.mpr ⟨outlines, outlined, rfl⟩
  · have loop : readPython .encode "for ix in range(elems):" = none := by
      simp [readPython, readLoop, pythonTarget, List.isPrefixOf?]
    have chosen : readPython .encode "msg = msgs[ix]" = none :=
      readPython_eq_none (head_ofList _ _) (by decide)
        (by decide)
    have returned : readPython .encode "return pos" = none :=
      readPython_eq_none (head_ofList _ _) (by decide) (by decide)
    rw [skeleton_append, skeleton_block_of_none _ loop, skeleton_plain_of_none _ chosen, same,
      skeleton_plain_of_none _ returned, skeleton_nil, List.append_nil, List.map_map]
    rfl

/-- The method that decodes a struct follows its outline. -/
theorem followsOutline_decodeMethods {plan : TypePlan} (known : ReadPlan plan) {lines : List Line}
    (written : decodeMethods plan = .ok lines) :
    ∃ before body, FollowsOutline .decode plan.struct body ∧
      lines = before ++ block (pythonHeader .decode) body := by
  obtain ⟨outer, steps, stepsWritten, -, rfl⟩ := decodeMethods_eq_ok known.read.name written
  rw [known.belongs.decode] at stepsWritten
  obtain ⟨outlines, outlined, same⟩ := skeleton_steps
    (fun member listed lines => skeleton_decodeStep (known.read.members member listed).type)
    stepsWritten
  refine ⟨outer, _, ⟨outlines.flatten, ?_, ?_⟩, rfl⟩
  · exact Outcome.bind_eq_ok.mpr ⟨outlines, outlined, rfl⟩
  · have unmarked : ∀ text, readPython .decode ("msg" ++ text) = none := fun text =>
      readPython_eq_none (head_append (head_ofList _ _) text) (by decide)
        (by decide)
    have list : readPython .decode "msgs = []" = none := unmarked "s = []"
    have loop : readPython .decode "for _ in range(elems):" = none := by
      simp [readPython, readLoop, pythonTarget, List.isPrefixOf?]
    have made : readPython .decode ("msg = " ++ flatName plan.struct.name ++ "()") = none := by
      rw [String.append_assoc]
      exact readPython_eq_none (head_append (head_ofList _ _) _) (by decide) (by decide)
    have added : readPython .decode "msgs.append(msg)" = none := unmarked "s.append(msg)"
    have returned : readPython .decode "return pos, msgs" = none :=
      readPython_eq_none (head_ofList _ _) (by decide)
        (by decide)
    rw [skeleton_append, List.singleton_append, skeleton_plain_of_none _ list,
      skeleton_block_of_none _ loop, List.cons_append, skeleton_plain_of_none _ made,
      skeleton_append, same, skeleton_plain_of_none _ added, skeleton_plain_of_none _ returned,
      skeleton_nil, List.append_nil, List.append_nil, List.map_map]
    rfl

/-- No method of the decoder has the header of the encoder. -/
theorem encode_header_not_mem {plan : TypePlan} {lines : List Line}
    (written : decodeMethods plan = .ok lines) : plain (pythonHeader .encode) ∉ lines := by
  obtain ⟨steps, -, rfl⟩ := Outcome.returning_eq_ok.mp written
  simp only [List.mem_append, mem_block, List.mem_cons, List.not_mem_nil, or_false]
  simp [plain, Line.blank, pythonHeader]

end Wireform.Backend
