import Wireform.Backend.MatlabFiles
import Wireform.Proofs.Backend.PythonText

/-! # Skeletons of generated MATLAB codecs

The function that writes or reads the members of a struct stands in a file of its own, so its
skeleton is read off all lines of that file. It is the outline of the struct, two levels deep, for
the encoder and for the decoder alike (`Wireform.Backend.matlabSkeleton_encodeMembersFile`,
`Wireform.Backend.matlabSkeleton_decodeMembersFile`).
-/

namespace Wireform.Backend

/-! ### Reading a line -/

/-- The variables to which the line of a transfer assigns. -/
def matlabTarget : Direction → String
  | .encode => "[buf, pos] = "
  | .decode => "[pos, t] = "

/-- The end of the name of a function that transfers values. -/
def matlabCodec : Direction → String
  | .encode => "_encode_nohash"
  | .decode => "_decode_nohash"

/-- Reads a line of a MATLAB codec. A call is for the type whose name starts the function's. -/
def readMatlab (direction : Direction) (text : String) : Option (Mark String) :=
  match readLoop "S(ix)" "for dx" " = 1:" "" text.toList with
  | some loop => some loop
  | none => do
      let call ← (matlabTarget direction).toList.isPrefixOf? text.toList
      let type ← (matlabCodec direction).toList.isSuffixOf? (call.takeWhile (· != '('))
      return .transfer (String.ofList type)

/-- The skeleton of the codec in the text of a file. -/
def matlabSkeleton (direction : Direction) (text : String) : List (SkeletonLine String) :=
  skeleton (readMatlab direction) (codeLines text)

/-- The name by which MATLAB code knows a type. -/
def matlabElementName (type : FieldType) : String := matlabName type.name

private theorem isOwner_element :
    IsOwner "S(ix)" := ⟨'S', ['(', 'i', 'x', ')'], rfl, rfl, by decide⟩

/-- Only a line that starts like a loop or with the list of results has a mark. -/
theorem readMatlab_eq_none {direction : Direction} {text : String} {c : Char}
    (starts : text.toList.head? = some c) (noLoop : c ≠ 'f') (noCall : c ≠ '[') :
    readMatlab direction text = none := by
  obtain ⟨rest, shape⟩ : ∃ rest, text.toList = c :: rest := List.head?_eq_some_iff.mp starts
  cases direction <;>
    simp [readMatlab, readLoop, matlabTarget, shape, List.isPrefixOf?, Ne.symm noLoop,
      Ne.symm noCall]

private theorem readMatlab_loop (direction : Direction) (level : Nat) {dimension : Dimension}
    {extent : Extent} (found : Extent.ofDimension dimension = .ok extent) :
    readMatlab direction ("for dx" ++ toString level ++ " = 1:" ++ extent.text "S(ix)") =
      some (.loop (toString level) extent) := by
  have written : _ = some (Mark.loop (toString level) extent : Mark String) :=
    readLoop_written isOwner_element "for dx" " = 1:" "" rfl rfl level found
  rw [String.append_empty] at written
  unfold readMatlab
  rw [written]

/-- Storage classes are words of letters and digits. -/
theorem isAlphanum_of_mem_storageClass {p : Primitive} {c : Char}
    (member : c ∈ (storageClass p).toList) : c.isAlphanum = true := by
  have all : (storageClass p).toList.all Char.isAlphanum = true := by
    cases p <;> simp [storageClass]
  exact List.all_eq_true.mp all c member

/-- The name of a type keeps to the characters of names. -/
theorem not_mem_matlabElementName {type : FieldType}
    (dotted : ∀ name, type = .compound name → Source.Dotted name) {c : Char}
    (outside : Source.isNamePart c = false) (symbol : c.isAlphanum = false) :
    c ∉ (matlabElementName type).toList := by
  have stored : ∀ p : Primitive, c ∉ (storageClass p).toList := by
    intro p member
    exact absurd (symbol.symm.trans (isAlphanum_of_mem_storageClass member)) (by simp)
  unfold matlabElementName matlabName
  split
  · next p _ => exact stored p
  · next foreign =>
      cases type with
      | primitive p => exact absurd (foreign.symm.trans (Primitive.ofName?_name p)) (by simp)
      | compound name => exact not_mem_flatName (dotted name rfl) outside

/-- A call is read off as a transfer of the type that starts the name of the function. -/
theorem readMatlab_transfer (direction : Direction) {stem : String} (closed : '(' ∉ stem.toList)
    (arguments : String) :
    readMatlab direction
        (matlabTarget direction ++ stem ++ matlabCodec direction ++ "(" ++ arguments) =
      some (.transfer stem) := by
  have noLoop : readLoop "S(ix)" "for dx" " = 1:" ""
      (matlabTarget direction ++ stem ++ matlabCodec direction ++ "(" ++ arguments).toList =
        (none : Option (Mark String)) := by
    cases direction <;> simp [readLoop, matlabTarget, List.isPrefixOf?]
  have callee : '(' ∉ stem.toList ++ (matlabCodec direction).toList := by
    rw [List.mem_append, not_or]
    exact ⟨closed, by cases direction <;> simp [matlabCodec]⟩
  have split :
      (matlabTarget direction ++ stem ++ matlabCodec direction ++ "(" ++ arguments).toList =
      (matlabTarget direction).toList ++
        (stem.toList ++ (matlabCodec direction).toList ++ '(' :: arguments.toList) := by
    simp
  unfold readMatlab
  rw [noLoop, split, isPrefixOf?_append]
  simp only [Option.bind_eq_bind, Option.bind_some, (Text.takeWhile_bne callee _).1,
    isSuffixOf?_append, String.ofList_toList]
  rfl

/-! ### Steps -/

/-- A closed block is a block with one line after it. -/
theorem closedBlock_eq (header : String) (body : List Line) (close : String) :
    closedBlock header body close = block header body ++ [plain close] := rfl

/-- The end of a block has no mark. -/
theorem readMatlab_end (direction : Direction) : readMatlab direction "end" = none :=
  readMatlab_eq_none (head_ofList _ _) (by decide) (by decide)

/-- Leaving a function has no mark. -/
theorem readMatlab_return (direction : Direction) : readMatlab direction "return;" = none :=
  readMatlab_eq_none (head_ofList _ _) (by decide) (by decide)

private theorem skeleton_conditional {direction : Direction} {body : List Line}
    (unmarked : skeleton (readMatlab direction) body = []) (condition : String) :
    skeleton (readMatlab direction) (conditional condition body) = [] := by
  have opens : readMatlab direction ("if " ++ condition) = none :=
    readMatlab_eq_none (head_append (head_ofList _ _) _) (by decide) (by decide)
  rw [conditional, closedBlock_eq, skeleton_append, skeleton_block_of_none _ opens, unmarked,
    skeleton_plain_of_none _ (readMatlab_end direction)]
  rfl

private theorem skeleton_matlabLengthChecks (direction : Direction) (step : FieldStep) :
    skeleton (readMatlab direction) (matlabLengthChecks step) = [] := by
  have refused : readMatlab direction "pos = -1;" = none :=
    readMatlab_eq_none (head_ofList _ _) (by decide) (by decide)
  have body : skeleton (readMatlab direction) [plain "pos = -1;", plain "return;"] = [] := by
    rw [skeleton_plain_of_none _ refused, skeleton_plain_of_none _ (readMatlab_return direction)]
    rfl
  unfold matlabLengthChecks
  induction step.lengthMembers with
  | nil => rfl
  | cons length lengths ih =>
      rw [List.flatMap_cons, skeleton_append, ih, skeleton_conditional body]
      rfl

/-- The skeleton of a body below counted loops is the outline of the transfer. -/
theorem skeleton_countedLoops {direction : Direction} {type : FieldType} {body lines : List Line}
    {level : Nat} {dimensions : List Dimension}
    (transfer : skeleton (readMatlab direction) body = [⟨0, .transfer (matlabElementName type)⟩])
    (written : countedLoops "S(ix)" body level dimensions = .ok lines) :
    ∃ outline, outlineFrom type level dimensions = .ok outline ∧
      skeleton (readMatlab direction) lines =
        outline.map (SkeletonLine.translate 0 matlabElementName) := by
  induction dimensions generalizing level lines with
  | nil =>
      obtain rfl := Outcome.pure_eq_ok.mp written
      exact ⟨_, rfl, transfer⟩
  | cons dimension dimensions ih =>
      obtain ⟨text, inner, extentWritten, innerWritten, rfl⟩ := countedLoops_cons_eq_ok written
      obtain ⟨extent, found, rfl⟩ := extentText_eq_ok extentWritten
      obtain ⟨outline, outlined, same⟩ := ih innerWritten
      refine ⟨_, Outcome.bind_eq_ok.mpr ⟨extent, found,
        Outcome.bind_eq_ok.mpr ⟨outline, outlined, rfl⟩⟩, ?_⟩
      rw [closedBlock_eq, skeleton_append,
        skeleton_block_of_some _ (readMatlab_loop direction level found), same,
        skeleton_plain_of_none _ (readMatlab_end direction), skeleton_nil, List.append_nil]
      simp only [List.map_cons, List.map_map]
      rfl

/-- A call and the check of the position after it. -/
theorem skeleton_matlabTransfer {direction : Direction} {type : FieldType}
    (dotted : ∀ name, type = .compound name → Source.Dotted name) (arguments : String)
    {call : String} (written : call = matlabTarget direction ++ matlabElementName type ++
      matlabCodec direction ++ "(" ++ arguments) :
    skeleton (readMatlab direction) (plain call :: conditional "pos < 1" [plain "return;"]) =
      [⟨0, .transfer (matlabElementName type)⟩] := by
  have closed : '(' ∉ (matlabElementName type).toList :=
    not_mem_matlabElementName dotted rfl rfl
  have marked : readMatlab direction (plain call).text =
      some (.transfer (matlabElementName type)) := by
    rw [written]
    exact readMatlab_transfer direction closed arguments
  have returned : skeleton (readMatlab direction) [plain "return;"] = [] := by
    rw [skeleton_plain_of_none _ (readMatlab_return direction), skeleton_nil]
  rw [skeleton_cons_of_some _ marked, skeleton_conditional returned]
  rfl

/-- **The lines that write a member follow its outline.** -/
theorem skeleton_matlabEncodeStep {step : FieldStep} {lines : List Line}
    (dotted : ∀ name, step.member.type = .compound name → Source.Dotted name)
    (written : matlabEncodeStep step = .ok lines) :
    ∃ outline, outlineFrom step.member.type 0 step.loops = .ok outline ∧
      skeleton (readMatlab .encode) lines =
        outline.map (SkeletonLine.translate 0 matlabElementName) := by
  obtain ⟨loops, loopsWritten, rfl⟩ := Outcome.returning_eq_ok.mp written
  have call : "[buf, pos] = " ++ matlabName step.member.type.name ++
      "_encode_nohash(buf, pos, maxlen, " ++
        matlabElement "S(ix)" step.member step.loops.length ++ ", 1);" =
      matlabTarget .encode ++ matlabElementName step.member.type ++ matlabCodec .encode ++ "(" ++
        ("buf, pos, maxlen, " ++
          matlabElement "S(ix)" step.member step.loops.length ++ ", 1);") := by
    apply String.toList_inj.mp
    simp [matlabTarget, matlabCodec, matlabElementName]
  obtain ⟨outline, outlined, same⟩ :=
    skeleton_countedLoops (skeleton_matlabTransfer dotted _ call) loopsWritten
  refine ⟨outline, outlined, ?_⟩
  rw [skeleton_append, skeleton_matlabLengthChecks, List.nil_append, same]

/-- An element of an array of structs begins with the name of the array. -/
theorem head_matlabElement (member : Member) (depth : Nat) (rest : String) :
    (matlabElement "S(ix)" member depth ++ rest).toList.head? = some 'S' := by
  unfold matlabElement
  dsimp only
  split
  · simp
  · split <;> simp

/-- **The lines that read a member follow its outline.** -/
theorem skeleton_matlabDecodeStep {step : FieldStep} {lines : List Line}
    (dotted : ∀ name, step.member.type = .compound name → Source.Dotted name)
    (written : matlabDecodeStep step = .ok lines) :
    ∃ outline, outlineFrom step.member.type 0 step.loops = .ok outline ∧
      skeleton (readMatlab .decode) lines =
        outline.map (SkeletonLine.translate 0 matlabElementName) := by
  obtain ⟨loops, loopsWritten, rfl⟩ := Outcome.returning_eq_ok.mp written
  have call : "[pos, t] = " ++ matlabName step.member.type.name ++
      "_decode_nohash(buf, pos, maxlen, " ++ matlabScalar step.member.type ++ ", 1);" =
      matlabTarget .decode ++ matlabElementName step.member.type ++ matlabCodec .decode ++ "(" ++
        ("buf, pos, maxlen, " ++ matlabScalar step.member.type ++ ", 1);") := by
    apply String.toList_inj.mp
    simp [matlabTarget, matlabCodec, matlabElementName]
  have assigned : ∀ value, readMatlab .decode
      (matlabElement "S(ix)" step.member step.loops.length ++ " = " ++ value ++ ";") = none := by
    intro value
    rw [String.append_assoc, String.append_assoc]
    exact readMatlab_eq_none (head_matlabElement step.member _ _) (by decide) (by decide)
  have body : ∀ value, skeleton (readMatlab .decode)
      (plain ("[pos, t] = " ++ matlabName step.member.type.name ++
          "_decode_nohash(buf, pos, maxlen, " ++ matlabScalar step.member.type ++ ", 1);") ::
        conditional "pos < 1" [plain "return;"] ++
        [plain (matlabElement "S(ix)" step.member step.loops.length ++ " = " ++ value ++ ";")]) =
      [⟨0, .transfer (matlabElementName step.member.type)⟩] := by
    intro value
    rw [skeleton_append, skeleton_matlabTransfer dotted _ call,
      skeleton_plain_of_none _ (assigned value)]
    rfl
  obtain ⟨outline, outlined, same⟩ := skeleton_countedLoops (body _) loopsWritten
  refine ⟨outline, outlined, ?_⟩
  rw [skeleton_append, skeleton_matlabLengthChecks, List.nil_append, same]

/-! ### Legible lines -/

/-- A closed block is legible with its header, its body and its last line. -/
theorem LegibleLines.closedBlock {header close : String} (opens : Printed header)
    (closes : Printed close) {body : List Line} (legible : LegibleLines body) :
    LegibleLines (closedBlock header body close) :=
  .append (.block opens legible) (.cons closes .nil)

/-- So is a block on a condition. -/
theorem LegibleLines.conditional {condition : String} (unbroken : Unbroken condition)
    {body : List Line} (legible : LegibleLines body) :
    LegibleLines (conditional condition body) :=
  .closedBlock (Printed.ofList rfl |>.append unbroken) (.ofList rfl) legible

/-- The names of element types stay on one line. -/
theorem Unbroken.matlabElementName {type : FieldType}
    (dotted : ∀ name, type = .compound name → Source.Dotted name) :
    Unbroken (matlabElementName type) :=
  not_mem_matlabElementName dotted rfl rfl

/-- Elements stay on one line with their owner and their member. -/
theorem Unbroken.matlabElement {owner : String} (outer : Unbroken owner) {member : Member}
    (inner : Unbroken member.name) (depth : Nat) : Unbroken (matlabElement owner member depth) := by
  have field : Unbroken (owner ++ "." ++ member.name) := (outer.append (.ofList rfl)).append inner
  have index : Unbroken (String.intercalate ", "
      ((List.range depth).map fun k => "dx" ++ ToString.toString k)) := by
    refine .intercalate (.ofList rfl) ?_
    intro text present
    obtain ⟨level, -, rfl⟩ := List.mem_map.mp present
    exact Unbroken.append (.ofList rfl) (.toString level)
  unfold Backend.matlabElement
  dsimp only
  split
  · exact field
  · split
    · exact field.append (.ofList rfl) |>.append index |>.append (.ofList rfl)
    · exact field.append (.ofList rfl) |>.append index |>.append (.ofList rfl)

/-- The first values of scalars stay on one line. -/
theorem Unbroken.matlabScalar {type : FieldType}
    (dotted : ∀ name, type = .compound name → Source.Dotted name) :
    Unbroken (matlabScalar type) := by
  unfold Backend.matlabScalar
  split
  · exact .ofList rfl
  · next p _ =>
      have stored : Unbroken (storageClass p) :=
        unbroken_of_forall (fun _ member => isAlphanum_of_mem_storageClass member) (by decide)
      exact stored.append (.ofList rfl)
  · next name =>
      exact (Unbroken.matlabElementName dotted).append (.ofList rfl)

/-- Loops around legible lines are legible. -/
theorem legible_countedLoops {owner : String} (outer : Unbroken owner) {body lines : List Line}
    (legible : LegibleLines body) {level : Nat} {dimensions : List Dimension}
    (read : ∀ dimension ∈ dimensions, dimension.Written)
    (written : countedLoops owner body level dimensions = .ok lines) : LegibleLines lines := by
  induction dimensions generalizing level lines with
  | nil =>
      obtain rfl := Outcome.pure_eq_ok.mp written
      exact legible
  | cons dimension dimensions ih =>
      obtain ⟨extent, inner, extentWritten, innerWritten, rfl⟩ := countedLoops_cons_eq_ok written
      have bound := Unbroken.extentText outer (read dimension List.mem_cons_self) extentWritten
      have nested := ih (fun later member => read later (List.mem_cons_of_mem _ member))
        innerWritten
      refine .closedBlock ?_ (.ofList rfl) nested
      exact Printed.ofList rfl |>.append (.toString level) |>.append (.ofList rfl) |>.append bound

private theorem legible_matlabLengthChecks {member : Member}
    (read : ∀ dimension ∈ member.dimensions, dimension.Written) :
    LegibleLines (matlabLengthChecks (.ofMember member)) := by
  refine .flatten ?_
  intro lines present
  obtain ⟨length, listed, rfl⟩ := List.mem_map.mp present
  have name := Unbroken.ofDotted (dotted_of_mem_lengthMembers read listed)
  refine .conditional ?_ (.cons (.ofList rfl) (.cons (.ofList rfl) .nil))
  exact Unbroken.append (.ofList rfl) name |>.append (.ofList rfl)

/-- The check for a position that was given up is legible. -/
theorem legible_positionCheck : LegibleLines (conditional "pos < 1" [plain "return;"]) :=
  .conditional (.ofList rfl) (.cons (.ofList rfl) .nil)

/-- What encodes a member is legible. -/
theorem legible_matlabEncodeStep {member : Member} (read : member.ReadFrom Source.Dotted)
    {lines : List Line} (written : matlabEncodeStep (.ofMember member) = .ok lines) :
    LegibleLines lines := by
  obtain ⟨loops, loopsWritten, rfl⟩ := Outcome.returning_eq_ok.mp written
  have owner : Unbroken "S(ix)" := .ofList rfl
  have value := owner.matlabElement (.ofDotted read.name) member.dimensions.length
  have type := Unbroken.matlabElementName read.type
  refine .append (legible_matlabLengthChecks read.dimensions)
    (legible_countedLoops owner (.cons ?_ legible_positionCheck) read.dimensions loopsWritten)
  exact Printed.ofList rfl |>.append type |>.append (.ofList rfl) |>.append value
    |>.append (.ofList rfl)

private theorem printed_matlabElement {member : Member} (name : Unbroken member.name)
    (depth : Nat) :
    Printed (matlabElement "S(ix)" member depth) := by
  have owner : Unbroken "S(ix)" := .ofList rfl
  refine ⟨owner.matlabElement name depth, 'S', ?_, by decide⟩
  have starts := head_matlabElement member depth ""
  rw [String.append_empty] at starts
  exact starts

/-- What decodes a member is legible. -/
theorem legible_matlabDecodeStep {member : Member} (read : member.ReadFrom Source.Dotted)
    {lines : List Line} (written : matlabDecodeStep (.ofMember member) = .ok lines) :
    LegibleLines lines := by
  obtain ⟨loops, loopsWritten, rfl⟩ := Outcome.returning_eq_ok.mp written
  have type := Unbroken.matlabElementName read.type
  have scalar := Unbroken.matlabScalar read.type
  have target := printed_matlabElement (.ofDotted read.name) member.dimensions.length
  have value : Unbroken (if member.type = .primitive .string then "t" else "t(1)") := by
    split <;> exact .ofList rfl
  refine .append (legible_matlabLengthChecks read.dimensions)
    (legible_countedLoops (.ofList rfl) (.append (.cons ?_ legible_positionCheck) (.cons ?_ .nil))
      read.dimensions loopsWritten)
  · exact Printed.ofList rfl |>.append type |>.append (.ofList rfl) |>.append scalar
      |>.append (.ofList rfl)
  · exact target.append (.ofList rfl) |>.append value |>.append (.ofList rfl)

/-! ### Files -/

/-- The comments at the top of every file. -/
def fileComments : List String :=
  ["% THIS IS AN AUTOMATICALLY GENERATED FILE.  DO NOT MODIFY", "% BY HAND!!", "%",
    "% Generated by lcmgen", "%", "%#eml", "%#codegen"]

/-- The header of a file is its comments, one on each line. -/
theorem fileHeader_eq_layOut : fileHeader = layOut (fileComments.map plain) := by
  rfl

/-- The comments of a file begin with a percent sign. -/
theorem head_fileComments : ∀ text ∈ fileComments, text.toList.head? = some '%' := by
  simp [fileComments]

/-- The comments of a file are legible. -/
theorem legible_fileComments : LegibleLines (fileComments.map plain) := by
  refine .cons ?_ (.cons ?_ (.cons ?_ (.cons ?_ (.cons ?_ (.cons ?_ (.cons ?_ .nil))))))
  all_goals exact .ofList rfl

/-- The header of a file has no skeleton. -/
theorem skeleton_fileHeader (direction : Direction) :
    skeleton (readMatlab direction) (codeLines fileHeader) = [] := by
  rw [fileHeader_eq_layOut, codeLines_layOut legible_fileComments]
  apply skeleton_eq_nil
  intro line member
  obtain ⟨text, listed, rfl⟩ := List.mem_map.mp (List.mem_filter.mp member).1
  exact readMatlab_eq_none (head_fileComments text listed) (by decide) (by decide)

/-- The lines of a file are the comments, the line of the function, its body and its end. -/
theorem codeLines_functionText {signature : String} (unbroken : Unbroken signature)
    {body : List Line} (legible : LegibleLines body) :
    codeLines (functionText signature body) = codeLines fileHeader ++
      occupied (plain ("function " ++ signature) ::
        (body ++ [plain "%endfunction", Line.blank])) := by
  have header : fileHeader =
      String.intercalate "\n" ((fileComments.map plain).map Line.render) ++ "\n" :=
    fileHeader_eq_layOut
  have ends : LegibleLines [plain "%endfunction", Line.blank] := .cons (.ofList rfl) (.blank .nil)
  have lines : LegibleLines
      (plain ("function " ++ signature) :: (body ++ [plain "%endfunction", Line.blank])) :=
    .cons (Printed.ofList rfl |>.append unbroken) (legible.append ends)
  rw [functionText, header, codeLines_append, ← header, codeLines_layOut lines]

/-- The skeleton of a file is that of its body. -/
theorem matlabSkeleton_functionText (direction : Direction) {signature : String}
    (unbroken : Unbroken signature) {body : List Line} (legible : LegibleLines body) :
    matlabSkeleton direction (functionText signature body) =
      skeleton (readMatlab direction) body := by
  have empty : readMatlab direction "" = none := by
    cases direction <;> simp [readMatlab, readLoop, matlabTarget, List.isPrefixOf?]
  have opens : readMatlab direction ("function " ++ signature) = none := by
    cases direction <;> simp [readMatlab, readLoop, matlabTarget, List.isPrefixOf?]
  have closes : readMatlab direction "%endfunction" = none :=
    readMatlab_eq_none (head_ofList _ _) (by decide) (by decide)
  have blank : readMatlab direction Line.blank.text = none := empty
  rw [matlabSkeleton, codeLines_functionText unbroken legible, skeleton_append,
    skeleton_fileHeader, skeleton_occupied _ empty,
    skeleton_plain_of_none _ opens, skeleton_append, skeleton_plain_of_none _ closes,
    skeleton_cons_of_none _ blank, skeleton_nil, List.nil_append, List.append_nil]

/-- A file whose steps follow the outlines of the members follows the outline of the struct: the
steps stand within the loop over the values. -/
theorem matlabSkeleton_steps {direction : Direction} {struct : Struct}
    {write : FieldStep → Except Numeral.Fault (List Line)}
    (follows : ∀ member ∈ struct.members, ∀ lines, write (.ofMember member) = .ok lines →
      ∃ outline, member.outline = .ok outline ∧ skeleton (readMatlab direction) lines =
        outline.map (SkeletonLine.translate 0 matlabElementName))
    (legible : ∀ member ∈ struct.members, ∀ lines, write (.ofMember member) = .ok lines →
      LegibleLines lines)
    {steps : List (List Line)}
    (written : (struct.members.map FieldStep.ofMember).mapM write = .ok steps)
    {signature : String} (unbroken : Unbroken signature) :
    ∃ outline, struct.outline = .ok outline ∧
      matlabSkeleton direction (functionText signature
          (deeper (closedBlock "for ix = 1:elems" steps.flatten "end"))) =
        outline.map (SkeletonLine.translate 2 matlabElementName) := by
  obtain ⟨outlines, outlined, same⟩ := skeleton_steps follows written
  have body := LegibleLines.steps legible written
  have opens : readMatlab direction "for ix = 1:elems" = none := by
    cases direction <;> simp [readMatlab, readLoop, matlabTarget, List.isPrefixOf?]
  refine ⟨outlines.flatten, Outcome.bind_eq_ok.mpr ⟨outlines, outlined, rfl⟩, ?_⟩
  rw [matlabSkeleton_functionText direction unbroken
      (.deeper (.closedBlock (.ofList rfl) (.ofList rfl) body)),
    skeleton_deeper, closedBlock_eq, skeleton_append, skeleton_block_of_none _ opens, same,
    skeleton_plain_of_none _ (readMatlab_end direction), skeleton_nil, List.append_nil,
    List.map_map, List.map_map]
  rfl

/-- **The file that writes the members follows the outline of the struct.** -/
theorem matlabSkeleton_encodeMembersFile {plan : TypePlan} (known : ReadPlan plan)
    {stem text : String} (unbroken : Unbroken stem)
    (written : encodeMembersFile stem plan = .ok text) :
    ∃ outline, plan.struct.outline = .ok outline ∧
      matlabSkeleton .encode text = outline.map (SkeletonLine.translate 2 matlabElementName) := by
  obtain ⟨steps, stepsWritten, rfl⟩ := Outcome.returning_eq_ok.mp written
  rw [known.belongs.encode] at stepsWritten
  have members := known.read.members
  refine matlabSkeleton_steps
    (fun member listed _ => skeleton_matlabEncodeStep (members member listed).type)
    (fun member listed _ => legible_matlabEncodeStep (members member listed)) stepsWritten ?_
  exact Unbroken.append (.ofList rfl) unbroken |>.append (.ofList rfl)

/-- **The file that reads the members follows the outline of the struct.** -/
theorem matlabSkeleton_decodeMembersFile {plan : TypePlan} (known : ReadPlan plan)
    {stem text : String} (unbroken : Unbroken stem)
    (written : decodeMembersFile stem plan = .ok text) :
    ∃ outline, plan.struct.outline = .ok outline ∧
      matlabSkeleton .decode text = outline.map (SkeletonLine.translate 2 matlabElementName) := by
  obtain ⟨steps, stepsWritten, rfl⟩ := Outcome.returning_eq_ok.mp written
  rw [known.belongs.decode] at stepsWritten
  have members := known.read.members
  refine matlabSkeleton_steps
    (fun member listed _ => skeleton_matlabDecodeStep (members member listed).type)
    (fun member listed _ => legible_matlabDecodeStep (members member listed)) stepsWritten ?_
  exact Unbroken.append (.ofList rfl) unbroken |>.append (.ofList rfl)

end Wireform.Backend
