import Wireform.Proofs.Backend.Legible
import Wireform.Proofs.Plan.Build

/-! # Generated Python classes keep to their lines

Every line of the class of a struct that was read from a file can be read back
(`Wireform.Backend.legible_classLines`): what the lines hold besides fixed words are the names of
the struct, numerals, and quoted names.
-/

namespace Wireform.Backend

/-- The text of an extent stays on one line. -/
theorem Unbroken.extentText {owner text : String} {dimension : Dimension}
    (unbroken : Unbroken owner) (read : dimension.Written)
    (written : extentText owner dimension = .ok text) : Unbroken text := by
  rcases extentText_cases written with ⟨-, value, -, numeral⟩ | ⟨dynamic, rfl⟩
  · exact .write numeral
  · exact (unbroken.append (.ofList rfl)).append (.ofDotted (read.dotted dynamic))

/-- The text of a dimension is that of its extent. -/
theorem extentText_eq_ok {owner : String} {dimension : Dimension} {text : String}
    (written : extentText owner dimension = .ok text) :
    ∃ extent, Extent.ofDimension dimension = .ok extent ∧ text = extent.text owner := by
  unfold Extent.ofDimension
  rcases extentText_cases written with ⟨constant, value, read, numeral⟩ | ⟨dynamic, rfl⟩
  · refine ⟨.numeral text, ?_, rfl⟩
    rw [if_pos constant]
    exact Outcome.bind_eq_ok.mpr ⟨value, read, Outcome.returning_eq_ok.mpr ⟨text, numeral, rfl⟩⟩
  · exact ⟨.length dimension.size, if_neg (Bool.eq_false_iff.mp dynamic), rfl⟩

private theorem Unbroken.elementText {owner member : String} (outer : Unbroken owner)
    (inner : Unbroken member) (depth : Nat) : Unbroken (elementText owner member depth) := by
  refine ((outer.append (.ofList rfl)).append inner).append (.join ?_)
  intro text present
  obtain ⟨level, -, rfl⟩ := List.mem_map.mp present
  exact (Unbroken.append (.ofList rfl) (.toString level)).append (.ofList rfl)

/-! ### Steps -/

/-- The dynamic sizes are the names of dynamic dimensions. -/
theorem mem_dynamicSizes {seen : List String} {dimensions : List Dimension} {name : String}
    (member : name ∈ FieldStep.dynamicSizes seen dimensions) :
    name ∈ seen ∨
      ∃ dimension ∈ dimensions, dimension.isConstant = false ∧ dimension.size = name := by
  induction dimensions generalizing seen with
  | nil => exact .inl member
  | cons dimension dimensions ih =>
      unfold FieldStep.dynamicSizes at member
      split at member
      · rcases ih member with earlier | ⟨later, present, found⟩
        · exact .inl earlier
        · exact .inr ⟨later, List.mem_cons_of_mem _ present, found⟩
      · next fresh =>
          rw [Bool.or_eq_true, not_or, Bool.not_eq_true] at fresh
          rcases ih member with earlier | ⟨later, present, found⟩
          · rcases List.mem_append.mp earlier with old | new
            · exact .inl old
            · exact .inr ⟨dimension, List.mem_cons_self, fresh.1, (List.mem_singleton.mp new).symm⟩
          · exact .inr ⟨later, List.mem_cons_of_mem _ present, found⟩

/-- The members that carry the extents of a step have dotted names. -/
theorem dotted_of_mem_lengthMembers {step : FieldStep}
    (read : ∀ dimension ∈ step.loops, dimension.Written) {length : String}
    (member : length ∈ step.lengthMembers) : Source.Dotted length := by
  rcases mem_dynamicSizes member with none | ⟨dimension, present, dynamic, rfl⟩
  · cases none
  · exact (read dimension present).dotted dynamic

/-- A length that bounds a step is a dotted name. -/
theorem dotted_of_boundedLength? {step : FieldStep}
    (read : ∀ dimension ∈ step.loops, dimension.Written) {length : String}
    (bounded : step.boundedLength? = some length) : Source.Dotted length := by
  unfold FieldStep.boundedLength? at bounded
  split at bounded
  · split at bounded
    · cases bounded
    · next inner last =>
        split at bounded
        · cases bounded
        · next dynamic =>
            obtain rfl := Option.some.inj bounded
            exact (read inner (List.mem_of_getLast? last)).dotted
              (Bool.eq_false_iff.mpr dynamic)
  · cases bounded

private theorem legible_lengthChecks {step : FieldStep} {fail : String} (printed : Printed fail)
    (read : ∀ dimension ∈ step.loops, dimension.Written) :
    LegibleLines (lengthChecks step fail) := by
  refine .flatten ?_
  intro lines present
  obtain ⟨length, member, rfl⟩ := List.mem_map.mp present
  have name : Unbroken length := .ofDotted (dotted_of_mem_lengthMembers read member)
  exact .block (Printed.ofList rfl |>.append name |>.append (.ofList rfl)) (.cons printed .nil)

private theorem legible_boundCheck {step : FieldStep}
    (read : ∀ dimension ∈ step.loops, dimension.Written) : LegibleLines (boundCheck step) := by
  unfold boundCheck
  split
  · exact .nil
  · next length bounded =>
      split
      · exact .nil
      · have name : Unbroken length := .ofDotted (dotted_of_boundedLength? read bounded)
        exact .block (Printed.ofList rfl |>.append name |>.append (.ofList rfl))
          (.cons (.ofList rfl) .nil)

private theorem legible_checkedLoops {owner member : String} {fail : Line} {body lines : List Line}
    {level : Nat} {dimensions : List Dimension} (outer : Unbroken owner) (inner : Unbroken member)
    (fails : LegibleLines [fail]) (legible : LegibleLines body)
    (read : ∀ dimension ∈ dimensions, dimension.Written)
    (written : checkedLoops owner member fail body level dimensions = .ok lines) :
    LegibleLines lines := by
  induction dimensions generalizing level lines with
  | nil =>
      obtain rfl := Outcome.pure_eq_ok.mp written
      exact legible
  | cons dimension dimensions ih =>
      obtain ⟨extent, below, extentWritten, innerWritten, rfl⟩ := checkedLoops_cons_eq_ok written
      have bound := Unbroken.extentText outer (read dimension List.mem_cons_self) extentWritten
      have element := outer.elementText inner level
      have nested := ih (fun later member => read later (List.mem_cons_of_mem _ member))
        innerWritten
      refine .append (.block ?_ fails) (.block ?_ nested)
      · exact Printed.ofList rfl |>.append element |>.append (.ofList rfl) |>.append bound
          |>.append (.ofList rfl)
      · exact Printed.ofList rfl |>.append (.toString level) |>.append (.ofList rfl)
          |>.append bound |>.append (.ofList rfl)

private theorem legible_fillingLoops {owner value : String} {body lines : List Line} {level : Nat}
    {dimensions : List Dimension} (outer : Unbroken owner) (filled : Unbroken value)
    (legible : LegibleLines body) (read : ∀ dimension ∈ dimensions, dimension.Written)
    (written : fillingLoops owner body value level dimensions = .ok lines) :
    LegibleLines lines := by
  induction dimensions generalizing level lines with
  | nil =>
      obtain rfl := Outcome.pure_eq_ok.mp written
      exact legible
  | cons dimension dimensions ih =>
      obtain ⟨extent, filling, item, extentWritten, rfl, shape⟩ := fillingLoops_cons_eq_ok written
      have bound := Unbroken.extentText outer (read dimension List.mem_cons_self) extentWritten
      have list (level : Nat) : Printed ("_t" ++ toString level) :=
        Printed.ofList rfl |>.append (.toString level)
      have inside : LegibleLines filling ∧ Unbroken item := by
        rcases shape with ⟨-, rfl, rfl⟩ | ⟨inner, innerWritten, rfl, rfl⟩
        · exact ⟨legible, filled⟩
        · have nested := ih (fun later member => read later (List.mem_cons_of_mem _ member))
            innerWritten
          exact ⟨.cons ((list (level + 1)).append (.ofList rfl)) nested,
            (list (level + 1)).unbroken⟩
      refine .block ?_ (.append inside.1 (.cons ?_ .nil))
      · exact Printed.ofList rfl |>.append (.toString level) |>.append (.ofList rfl)
          |>.append bound |>.append (.ofList rfl)
      · exact (list level).append (.ofList rfl) |>.append inside.2 |>.append (.ofList rfl)

private theorem Unbroken.packer {p : Primitive} {name : String} (packed : packer? p = some name) :
    Unbroken name := by
  cases p <;> cases packed <;> exact .ofList rfl

private theorem Unbroken.encodeCall {type : FieldType} {value call : String}
    (dotted : ∀ name, type = .compound name → Source.Dotted name) (unbroken : Unbroken value)
    (written : encodeCall type value = .ok call) : Unbroken call := by
  rcases encodeCall_cases written with ⟨-, rfl⟩ | ⟨p, name, -, packed, rfl⟩ | ⟨name, same, rfl⟩
  · exact Unbroken.append (.ofList rfl) unbroken |>.append (.ofList rfl)
  · exact Unbroken.append (.ofList rfl) (.packer packed) |>.append (.ofList rfl)
      |>.append unbroken |>.append (.ofList rfl)
  · exact Unbroken.append (.flatName (dotted name same)) (.ofList rfl) |>.append unbroken
      |>.append (.ofList rfl)

private theorem Unbroken.decodeCall {type : FieldType} {call : String}
    (dotted : ∀ name, type = .compound name → Source.Dotted name)
    (written : decodeCall type = .ok call) : Unbroken call := by
  rcases decodeCall_cases written with ⟨-, rfl⟩ | ⟨p, name, -, packed, rfl⟩ | ⟨name, same, rfl⟩
  · exact .ofList rfl
  · exact Unbroken.append (.ofList rfl) (.packer packed) |>.append (.ofList rfl)
  · exact Unbroken.append (.flatName (dotted name same)) (.ofList rfl)

private theorem legible_encodeStep {member : Member} (read : member.ReadFrom Source.Dotted)
    {lines : List Line} (written : encodeStep (.ofMember member) = .ok lines) :
    LegibleLines lines := by
  obtain ⟨call, loops, called, loopsWritten, rfl⟩ := encodeStep_eq_ok written
  have owner : Unbroken "msg" := .ofList rfl
  have name : Unbroken member.name := .ofDotted read.name
  have printed :=
    Unbroken.encodeCall read.type (owner.elementText name member.dimensions.length) called
  have body : LegibleLines (writingLines call) :=
    .cons (Printed.ofList rfl |>.append printed) (.block (.ofList rfl) (.cons (.ofList rfl) .nil))
  refine .append (legible_lengthChecks (.ofList rfl) read.dimensions) ?_
  exact legible_checkedLoops owner name (.cons (.ofList rfl) .nil) body read.dimensions
    loopsWritten

private theorem legible_decodeStep {member : Member} (read : member.ReadFrom Source.Dotted)
    {lines : List Line} (written : decodeStep (.ofMember member) = .ok lines) :
    LegibleLines lines := by
  have name : Unbroken member.name := .ofDotted read.name
  have target : Printed ("msg." ++ member.name ++ " = ") :=
    Printed.ofList rfl |>.append name |>.append (.ofList rfl)
  obtain ⟨call, value, moved, called, rfl, chosen, shape⟩ := decodeStep_eq_ok written
  have reading : LegibleLines (readingLines call) :=
    .cons (Printed.ofList rfl |>.append (.decodeCall read.type called))
      (.block (.ofList rfl) (.cons (.ofList rfl) .nil))
  have filled : Unbroken value := by
    rw [chosen]
    split <;> exact .ofList rfl
  refine .append (.append (legible_lengthChecks (.ofList rfl) read.dimensions)
    (legible_boundCheck read.dimensions)) ?_
  rcases shape with ⟨-, rfl⟩ | ⟨-, loops, loopsWritten, rfl⟩
  · exact .append reading (.cons (target.append filled) .nil)
  · have loopsLegible := legible_fillingLoops (.ofList rfl) filled reading read.dimensions
      loopsWritten
    exact .append (.cons (.ofList rfl) loopsLegible) (.cons (target.append (.ofList rfl)) .nil)

/-! ### Methods -/

private theorem Unbroken.defaultValue {type : FieldType}
    (dotted : ∀ name, type = .compound name → Source.Dotted name) {dimensions : List Dimension}
    {text : String} (written : defaultValue type dimensions = .ok text) : Unbroken text := by
  induction dimensions generalizing text with
  | nil =>
      obtain rfl := Outcome.pure_eq_ok.mp written
      unfold defaultScalar
      split
      · exact .ofList rfl
      · exact .ofList rfl
      · exact .ofList rfl
      · exact .ofList rfl
      · exact .ofList rfl
      · next name => exact Unbroken.append (.flatName (dotted name rfl)) (.ofList rfl)
  | cons dimension dimensions ih =>
      rcases defaultValue_cons_eq_ok written with
        ⟨inner, value, extent, innerWritten, numeral, rfl⟩ | rfl
      · exact Unbroken.append (.ofList rfl) (ih innerWritten) |>.append (.ofList rfl)
          |>.append (.write numeral) |>.append (.ofList rfl)
      · exact .ofList rfl

private theorem legible_initMethod {struct : Struct} (read : struct.ReadFrom Source.Dotted)
    {lines : List Line} (written : initMethod struct = .ok lines) : LegibleLines lines := by
  obtain ⟨assignments, rfl, -, assigned⟩ := initMethod_eq_ok written
  refine .append (.block (.ofList rfl) ?_) (.blank .nil)
  intro line present
  obtain ⟨member, known, value, valueWritten, rfl⟩ := assigned line present
  have fields := read.members member known
  have printed : Printed ("self." ++ member.name ++ " = " ++ value) :=
    Printed.ofList rfl |>.append (.ofDotted fields.name) |>.append (.ofList rfl)
      |>.append (.defaultValue fields.type valueWritten)
  exact LegibleLines.cons printed .nil _ List.mem_cons_self

private theorem legible_valueMethods {struct : Struct} (dotted : Source.Dotted struct.name) :
    LegibleLines (valueMethods struct) := by
  have name := Unbroken.flatName dotted
  unfold valueMethods
  with_reducible repeat' first
    | apply LegibleLines.append
    | apply LegibleLines.block
    | apply LegibleLines.cons
    | apply LegibleLines.blank
    | apply Printed.append
    | apply Unbroken.append
    | exact .nil
    | exact .ofList rfl
    | assumption

private theorem Unbroken.pathPair (name : String) : Unbroken (pathPair name) :=
  Unbroken.append (.ofList rfl) (.toString _) |>.append (.ofList rfl) |>.append (.quote name)
    |>.append (.ofList rfl)

private theorem legible_hashMethods {plan : TypePlan}
    (dotted : ∀ dependency ∈ plan.dependencies, Source.Dotted dependency) :
    LegibleLines (hashMethods plan) := by
  have path := Unbroken.pathPair plan.struct.name
  have base := Unbroken.hexText 16 plan.struct.baseHash
  have visits : LegibleLines (plan.dependencies.flatMap fun dependency =>
      block ("if " ++ pathPair dependency ++ " not in parents:")
        [plain ("tmphash = (tmphash + " ++ flatName dependency
          ++ "._compute_hash(parents)) & _MASK64")]) := by
    refine .flatten ?_
    intro lines present
    obtain ⟨dependency, member, rfl⟩ := List.mem_map.mp present
    have name := Unbroken.flatName (dotted dependency member)
    exact .block (Printed.ofList rfl |>.append (.pathPair dependency) |>.append (.ofList rfl))
      (.cons (Printed.ofList rfl |>.append name |>.append (.ofList rfl)) .nil)
  unfold hashMethods
  with_reducible repeat' first
    | exact visits
    | apply LegibleLines.append
    | apply LegibleLines.block
    | apply LegibleLines.cons
    | apply LegibleLines.blank
    | apply Printed.append
    | apply Unbroken.append
    | exact .nil
    | exact .ofList rfl
    | assumption

private theorem Unbroken.elementSize {type : FieldType} {width : Option Nat} {value : String}
    (unbroken : Unbroken value) : Unbroken (elementSize type width value) := by
  unfold Backend.elementSize
  split
  · exact .toString _
  · exact Unbroken.append (.ofList rfl) unbroken |>.append (.ofList rfl)
  · exact unbroken.append (.ofList rfl)

private theorem legible_sizeStep {struct : String} (dotted : Source.Dotted struct) {member : Member}
    (read : member.ReadFrom Source.Dotted) {term : SizeTerm}
    (found : SizeTerm.ofMember member = .ok term) {lines : List Line}
    (written : sizeStep struct term = .ok lines) : LegibleLines lines := by
  rcases SizeTerm.ofMember_eq_ok found with ⟨width, extents, -, -, -, rfl⟩ | ⟨rfl, -⟩
  · obtain rfl := Outcome.pure_eq_ok.mp written
    exact .nil
  · have owner : Unbroken "self" := .ofList rfl
    have name : Unbroken member.name := .ofDotted read.name
    have element := owner.elementText name member.dimensions.length
    refine legible_checkedLoops owner name (.cons ?_ .nil) (.cons ?_ .nil) read.dimensions written
    · exact Printed.ofList rfl |>.append (.ofDotted dotted) |>.append (.ofList rfl) |>.append name
        |>.append (.ofList rfl)
    · exact Printed.ofList rfl |>.append element.elementSize

private theorem legible_sizeStart {plan : SizePlan} {line : Line}
    (dotted : ∀ term ∈ plan.terms, Source.Dotted term.member.name)
    (written : sizeStart plan = .ok line) : LegibleLines [line] := by
  have folded : Unbroken (String.intercalate ", " (plan.constantTerms.map (·.member.name))) := by
    refine .intercalate (.ofList rfl) ?_
    intro text present
    obtain ⟨term, kept, rfl⟩ := List.mem_map.mp present
    exact .ofDotted (dotted term (List.mem_filter.mp kept).1)
  rcases sizeStart_eq_ok written with rfl | ⟨bytes, bytesWritten, rfl⟩
  · exact .cons (.ofList rfl) .nil
  · refine .cons ?_ .nil
    exact Printed.ofList rfl |>.append (.write bytesWritten) |>.append (.ofList rfl)
      |>.append folded

/-- The plan of a struct that was read from a file. -/
structure ReadPlan (plan : TypePlan) : Prop where
  belongs : plan.OfStruct
  read : plan.struct.ReadFrom Source.Dotted

private theorem ReadPlan.term {plan : TypePlan} (known : ReadPlan plan) {term : SizeTerm}
    (member : term ∈ plan.size.terms) :
    ∃ owner, owner.ReadFrom Source.Dotted ∧ SizeTerm.ofMember owner = .ok term := by
  obtain ⟨owner, present, found⟩ := SizePlan.exists_of_mem_ofStruct known.belongs.size member
  exact ⟨owner, known.read.members owner present, found⟩

/-- The members whose sizes are added have dotted names. -/
theorem ReadPlan.dotted_term {plan : TypePlan} (known : ReadPlan plan) :
    ∀ term ∈ plan.size.terms, Source.Dotted term.member.name := by
  intro term member
  obtain ⟨owner, read, found⟩ := known.term member
  rw [SizeTerm.member_of_ofMember found]
  exact read.name

/-- The lines that add a size come each from a term of a member. -/
theorem ReadPlan.exists_of_mem_sizes {plan : TypePlan} (known : ReadPlan plan)
    {write : SizeTerm → Except Numeral.Fault (List Line)} {sizes : List (List Line)}
    (written : plan.size.elementTerms.mapM write = .ok sizes) {lines : List Line}
    (present : lines ∈ sizes) :
    ∃ owner term, owner.ReadFrom Source.Dotted ∧ SizeTerm.ofMember owner = .ok term ∧
      write term = .ok lines := by
  obtain ⟨term, kept, termWritten⟩ := Outcome.exists_of_mem_mapM written present
  obtain ⟨owner, read, found⟩ := known.term (List.mem_filter.mp kept).1
  exact ⟨owner, term, read, found, termWritten⟩

/-- The types that a struct depends on have dotted names. -/
theorem ReadPlan.dependency {plan : TypePlan} (known : ReadPlan plan) :
    ∀ dependency ∈ plan.dependencies, Source.Dotted dependency := by
  intro dependency present
  rw [known.belongs.dependencies] at present
  obtain ⟨member, listed, compound⟩ := Struct.exists_of_mem_dependencies present
  exact (known.read.members member listed).type dependency compound

private theorem legible_sizeMethods {plan : TypePlan} (known : ReadPlan plan) {lines : List Line}
    (written : sizeMethods plan = .ok lines) : LegibleLines lines := by
  obtain ⟨start, steps, startWritten, stepsWritten, rfl⟩ := sizeMethods_eq_ok written
  have startLegible := legible_sizeStart known.dotted_term startWritten
  have stepsLegible : LegibleLines steps.flatten := by
    refine .flatten fun step present => ?_
    obtain ⟨owner, term, read, found, stepWritten⟩ := known.exists_of_mem_sizes stepsWritten present
    exact legible_sizeStep known.read.name read found stepWritten
  have body : LegibleLines (start :: steps.flatten ++ [plain "return size"]) :=
    .append (.append startLegible stepsLegible) (.cons (.ofList rfl) .nil)
  exact .append (.append (.append (.block (.ofList rfl) (.cons (.ofList rfl) .nil)) (.blank .nil))
    (.block (.ofList rfl) body)) (.blank .nil)

/-- The encoder of a class is the method for the members after the methods for whole buffers. -/
theorem encodeMethods_eq_ok {plan : TypePlan} (dotted : Source.Dotted plan.struct.name)
    {lines : List Line} (written : encodeMethods plan = .ok lines) :
    ∃ outer steps, plan.encode.steps.mapM encodeStep = .ok steps ∧ LegibleLines outer ∧
      lines = outer ++ block "def _encode_nohash(buf, pos, maxlen, msgs, elems):"
        (block "for ix in range(elems):" (plain "msg = msgs[ix]" :: steps.flatten)
          ++ [plain "return pos"]) ++ [Line.blank] := by
  have name := Unbroken.ofDotted dotted
  have className := Unbroken.flatName dotted
  obtain ⟨steps, stepsWritten, rfl⟩ := Outcome.returning_eq_ok.mp written
  refine ⟨_, steps, stepsWritten, ?_, rfl⟩
  with_reducible repeat' first
    | apply LegibleLines.append
    | apply LegibleLines.block
    | apply LegibleLines.cons
    | apply LegibleLines.blank
    | apply Printed.append
    | apply Unbroken.append
    | exact .nil
    | exact .ofList rfl
    | assumption

/-- The decoder of a class is the method for the members after the methods for whole buffers. -/
theorem decodeMethods_eq_ok {plan : TypePlan} (dotted : Source.Dotted plan.struct.name)
    {lines : List Line} (written : decodeMethods plan = .ok lines) :
    ∃ outer steps, plan.decode.steps.mapM decodeStep = .ok steps ∧ LegibleLines outer ∧
      lines = outer ++ block "def _decode_nohash(buf, pos, maxlen, elems):"
        ([plain "msgs = []"]
          ++ block "for _ in range(elems):"
              (plain ("msg = " ++ flatName plan.struct.name ++ "()") :: steps.flatten
                ++ [plain "msgs.append(msg)"])
          ++ [plain "return pos, msgs"]) := by
  have name := Unbroken.ofDotted dotted
  obtain ⟨steps, stepsWritten, rfl⟩ := Outcome.returning_eq_ok.mp written
  refine ⟨_, steps, stepsWritten, ?_, rfl⟩
  with_reducible repeat' first
    | apply LegibleLines.append
    | apply LegibleLines.block
    | apply LegibleLines.cons
    | apply LegibleLines.blank
    | apply Printed.append
    | apply Unbroken.append
    | exact .nil
    | exact .ofList rfl
    | assumption

private theorem legible_encodeMethods {plan : TypePlan} (known : ReadPlan plan) {lines : List Line}
    (written : encodeMethods plan = .ok lines) : LegibleLines lines := by
  obtain ⟨outer, steps, stepsWritten, legible, rfl⟩ := encodeMethods_eq_ok known.read.name written
  rw [known.belongs.encode] at stepsWritten
  have stepsLegible := LegibleLines.steps
    (fun member listed lines => legible_encodeStep (known.read.members member listed)) stepsWritten
  refine .append (.append legible (.block (.ofList rfl) (.append (.block (.ofList rfl) ?_) ?_)))
    (.blank .nil)
  · exact .cons (.ofList rfl) stepsLegible
  · exact .cons (.ofList rfl) .nil

private theorem legible_decodeMethods {plan : TypePlan} (known : ReadPlan plan) {lines : List Line}
    (written : decodeMethods plan = .ok lines) : LegibleLines lines := by
  obtain ⟨outer, steps, stepsWritten, legible, rfl⟩ := decodeMethods_eq_ok known.read.name written
  rw [known.belongs.decode] at stepsWritten
  have stepsLegible := LegibleLines.steps
    (fun member listed lines => legible_decodeStep (known.read.members member listed)) stepsWritten
  have made := Unbroken.flatName known.read.name
  refine .append legible (.block (.ofList rfl) ?_)
  refine .append (.append (.cons (.ofList rfl) .nil) (.block (.ofList rfl) ?_)) ?_
  · refine .append (.cons ?_ stepsLegible) (.cons (.ofList rfl) .nil)
    exact Printed.ofList rfl |>.append made |>.append (.ofList rfl)
  · exact .cons (.ofList rfl) .nil

/-- The header of a class. -/
def classHeader (className : String) : String := "class " ++ className ++ "(object):"

/-- **A class can be read back.** Every line of the class of a struct that was read from a file is
legible; the encoder and the decoder stand at its end. -/
theorem legible_classLines {plan : TypePlan} (known : ReadPlan plan) {lines : List Line}
    (written : classLines plan = .ok lines) :
    LegibleLines lines ∧
      ∃ before encode decode, encodeMethods plan = .ok encode ∧ decodeMethods plan = .ok decode ∧
        lines = block (classHeader (flatName plan.struct.name)) (before ++ encode ++ decode) := by
  obtain ⟨init, size, encode, decode, initWritten, sizeWritten, encodeWritten, decodeWritten,
    rfl⟩ :=
    classLines_eq_ok written
  refine ⟨?_, _, encode, decode, encodeWritten, decodeWritten, rfl⟩
  have slots : Unbroken (String.intercalate ", "
      (plan.struct.members.map fun member => "\"" ++ member.name ++ "\"")) := by
    refine .intercalate (.ofList rfl) ?_
    intro text present
    obtain ⟨member, listed, rfl⟩ := List.mem_map.mp present
    have name := Unbroken.ofDotted (known.read.members member listed).name
    exact Unbroken.append (.ofList rfl) name |>.append (.ofList rfl)
  have name := Unbroken.ofDotted known.read.name
  have className := Unbroken.flatName known.read.name
  have word := Unbroken.hexText 16 plan.fingerprint.toNat
  have initLegible := legible_initMethod known.read initWritten
  have valueLegible := legible_valueMethods known.read.name
  have hashLegible := legible_hashMethods known.dependency
  have sizeLegible := legible_sizeMethods known sizeWritten
  have encodeLegible := legible_encodeMethods known encodeWritten
  have decodeLegible := legible_decodeMethods known decodeWritten
  with_reducible repeat' first
    | assumption
    | apply LegibleLines.append
    | apply LegibleLines.block
    | apply LegibleLines.cons
    | apply LegibleLines.blank
    | apply Printed.append
    | apply Unbroken.append
    | exact .nil
    | exact .ofList rfl

end Wireform.Backend
