import Wireform.Proofs.Backend.PythonSkeleton

/-! # Codecs in the text of a Python module

A generated module is one text. The class of a struct is found in it by its header when no later
class has the same name, and the codec of the class by the header of its method. What is read off
there is the outline of the struct, three levels deep, for the encoder and for the decoder alike
(`Wireform.Backend.pythonSkeleton_of_pythonModule`). Nothing is assumed of the text that names the
origin of the module: it stands before all classes, and the last header counts. The lines of a
decoder are those of its steps in order (`Wireform.Backend.pythonDecoder_of_pythonModule`).
-/

namespace Wireform.Backend

/-! ### Classes -/

private theorem deeper_not_mem {line : Line} {lines : List Line} (absent : line ∉ lines) :
    line.deeper ∉ deeper lines := by
  intro member
  obtain ⟨other, present, same⟩ := List.mem_map.mp member
  have equal : other = line := by
    cases other
    cases line
    simpa [Line.deeper] using same
  exact absent (equal ▸ present)

/-- A method is found among the lines of a class by its header. -/
theorem blockUnder_method {header : String} (written : header ≠ "") (before body : List Line)
    {after : List Line} (absent : plain header ∉ after)
    (ends : ∀ line ∈ (occupied after).head?, line.depth = 0) :
    blockUnder ⟨1, header⟩ (deeper (occupied (before ++ block header body ++ after))) =
      deeper (deeper (occupied body)) := by
  have shape : deeper (occupied (before ++ block header body ++ after)) =
      deeper (occupied before) ++
        (plain header).deeper :: (deeper (deeper (occupied body)) ++ deeper (occupied after)) := by
    rw [occupied_append, occupied_append, occupied_block written]
    simp only [deeper_append, deeper_cons, List.append_assoc, List.cons_append]
  rw [shape]
  refine blockUnder_eq _ ?_ ?_ ?_
  · intro line member
    obtain ⟨shallow, present, rfl⟩ := List.mem_map.mp member
    obtain ⟨other, -, rfl⟩ := List.mem_map.mp present
    change 1 < other.depth + 1 + 1
    omega
  · exact deeper_not_mem fun member => absent (List.mem_filter.mp member).1
  · intro line first
    rw [deeper, List.head?_map, Option.mem_def, Option.map_eq_some_iff] at first
    obtain ⟨shallow, present, rfl⟩ := first
    change shallow.depth + 1 ≤ 1
    rw [ends shallow present]

/-- The header of a codec is not empty. -/
theorem pythonHeader_ne_empty (direction : Direction) : pythonHeader direction ≠ "" := by
  cases direction <;> simp [pythonHeader]

/-- The methods of the decoder start at the level of the methods. -/
theorem depth_head_decodeMethods {plan : TypePlan} {lines : List Line}
    (written : decodeMethods plan = .ok lines) :
    ∀ line ∈ (occupied (Line.blank :: lines)).head?, line.depth = 0 := by
  obtain ⟨steps, -, rfl⟩ := Outcome.returning_eq_ok.mp written
  have filled (rest : List Line) : occupied (Line.blank :: plain "@classmethod" :: rest) =
      plain "@classmethod" :: occupied rest := by
    simp [occupied, Line.blank, plain]
  simp only [List.append_assoc, List.cons_append, List.nil_append, filled, List.head?_cons,
    Option.mem_some, forall_eq']
  rfl

/-- What a method transfers, as it stands in the text of a class. -/
theorem skeleton_method {direction : Direction} {body : List Line}
    {outline : List (SkeletonLine FieldType)}
    (follows : skeleton (readPython direction) body =
      outline.map (SkeletonLine.translate 1 pythonElement)) :
    skeleton (readPython direction) (deeper (deeper (occupied body))) =
      outline.map (SkeletonLine.translate 3 pythonElement) := by
  have empty : readPython direction "" = none := by
    cases direction <;> simp [readPython, readLoop, pythonTarget, List.isPrefixOf?]
  rw [skeleton_deeper, skeleton_deeper, skeleton_occupied _ empty, follows, List.map_map,
    List.map_map]
  rfl

/-- **Both codecs of a class follow the outline of the struct.** -/
theorem skeleton_classLines {plan : TypePlan} (known : ReadPlan plan) {lines : List Line}
    (written : classLines plan = .ok lines) :
    ∃ body outline, plan.struct.outline = .ok outline ∧
      lines = block (classHeader (flatName plan.struct.name)) body ∧
      ∀ direction, skeleton (readPython direction)
          (blockUnder ⟨1, pythonHeader direction⟩ (deeper (occupied body))) =
        outline.map (SkeletonLine.translate 3 pythonElement) := by
  obtain ⟨-, before, encode, decode, encodeWritten, decodeWritten, rfl⟩ :=
    legible_classLines known written
  have absent := encode_header_not_mem decodeWritten
  have starts := depth_head_decodeMethods decodeWritten
  obtain ⟨outer, encodeBody, ⟨outline, outlined, encodes⟩, rfl⟩ :=
    followsOutline_encodeMethods known encodeWritten
  obtain ⟨outer', decodeBody, ⟨outline', outlined', decodes⟩, rfl⟩ :=
    followsOutline_decodeMethods known decodeWritten
  obtain rfl := Except.ok.inj (outlined.symm.trans outlined')
  refine ⟨_, outline, outlined, rfl, ?_⟩
  intro direction
  cases direction with
  | encode =>
      have regroup : before ++ (outer ++ block (pythonHeader .encode) encodeBody ++ [Line.blank]) ++
          (outer' ++ block (pythonHeader .decode) decodeBody) =
          (before ++ outer) ++ block (pythonHeader .encode) encodeBody ++
            (Line.blank :: (outer' ++ block (pythonHeader .decode) decodeBody)) := by
        simp only [List.append_assoc, List.singleton_append]
      rw [regroup, blockUnder_method (pythonHeader_ne_empty .encode)]
      · exact skeleton_method encodes
      · rw [List.mem_cons, not_or]
        exact ⟨by simp [plain, Line.blank, pythonHeader], absent⟩
      · exact starts
  | decode =>
      have regroup : before ++ (outer ++ block (pythonHeader .encode) encodeBody ++ [Line.blank]) ++
          (outer' ++ block (pythonHeader .decode) decodeBody) =
          (before ++ (outer ++ block (pythonHeader .encode) encodeBody ++ [Line.blank]) ++
            outer') ++ block (pythonHeader .decode) decodeBody ++ [] := by
        simp only [List.append_assoc, List.append_nil]
      rw [regroup, blockUnder_method (pythonHeader_ne_empty .decode)]
      · exact skeleton_method decodes
      · exact List.not_mem_nil
      · intro line first
        cases first

/-! ### Modules -/

variable {schema : Schema} {source : Option String} {cache after : FingerprintCache}
  {plans : List TypePlan} {text : String}

private theorem classHeader_injective {first second : String}
    (same : classHeader first = classHeader second) : first = second := by
  have chars := congrArg String.toList same
  simp only [classHeader, String.toList_append, List.append_assoc] at chars
  exact String.toList_inj.mp (List.append_cancel_right (List.append_cancel_left chars))

/-- The header of a class is not empty. -/
theorem classHeader_ne_empty (className : String) : classHeader className ≠ "" := by
  simp [classHeader]

/-- The plans of a schema that was read from texts. -/
theorem readPlan_of_plans {texts : List String} (read : Schema.ofTexts texts = .ok schema)
    (planned : schema.plans cache = (.ok plans, after)) : ∀ plan ∈ plans, ReadPlan plan := by
  intro plan member
  refine ⟨Schema.ofStruct_of_plans planned plan member, ?_⟩
  have listed : plan.struct ∈ schema.structs := by
    rw [← Schema.struct_of_plans planned]
    exact List.mem_map_of_mem member
  exact Schema.readFrom_of_ofTexts read plan.struct listed

/-- What follows a class in a module: the classes of further plans and a last line. -/
def moduleRest (classes : List (List Line)) (last : String) : List Line :=
  classes.flatMap (gap ++ ·) ++ gap ++ [plain last]

section Rest

variable {classes : List (List Line)} {last : String}

/-- The classes of a module and its last line are legible. -/
theorem legible_moduleRest (known : ∀ plan ∈ plans, ReadPlan plan)
    (written : plans.mapM classLines = .ok classes) (printed : Printed last) :
    LegibleLines (moduleRest classes last) := by
  have apart : LegibleLines gap := .blank (.blank .nil)
  refine .append (.append (.flatten ?_) apart) (.cons printed .nil)
  intro lines present
  obtain ⟨own, listed, rfl⟩ := List.mem_map.mp present
  obtain ⟨plan, member, classWritten⟩ := Outcome.exists_of_mem_mapM written listed
  exact apart.append (legible_classLines (known plan member) classWritten).1

/-- The outermost lines after a class are empty, headers of further classes, and the last line. -/
theorem mem_moduleRest (known : ∀ plan ∈ plans, ReadPlan plan)
    (written : plans.mapM classLines = .ok classes) {header : String}
    (member : plain header ∈ moduleRest classes last) :
    header = "" ∨ (∃ plan ∈ plans, header = classHeader (flatName plan.struct.name)) ∨
      header = last := by
  have notGap : plain header ∈ gap → header = "" := by
    intro blank
    have empty : plain header = Line.blank := by simpa [gap] using blank
    exact congrArg Line.text empty
  rcases List.mem_append.mp member with before | final
  · rcases List.mem_append.mp before with inClasses | inGap
    · obtain ⟨lines, listed, inside⟩ := List.mem_flatMap.mp inClasses
      rcases List.mem_append.mp inside with inGap | inClass
      · exact .inl (notGap inGap)
      · obtain ⟨plan, planned, classWritten⟩ := Outcome.exists_of_mem_mapM written listed
        obtain ⟨-, before, encode, decode, -, -, rfl⟩ :=
          legible_classLines (known plan planned) classWritten
        exact .inr (.inl ⟨plan, planned, mem_block.mp inClass⟩)
    · exact .inl (notGap inGap)
  · exact .inr (.inr (congrArg Line.text (List.mem_singleton.mp final)))

private theorem depth_head_moduleRest (known : ∀ plan ∈ plans, ReadPlan plan)
    (written : plans.mapM classLines = .ok classes) (occupies : last ≠ "") :
    ∀ line ∈ (occupied (moduleRest classes last)).head?, line.depth = 0 := by
  have apart : occupied gap = [] := rfl
  suffices shape : ∃ header rest, occupied (moduleRest classes last) = plain header :: rest by
    obtain ⟨header, rest, shape⟩ := shape
    intro line first
    rw [shape, List.head?_cons, Option.mem_some] at first
    rw [← first]
    rfl
  unfold moduleRest
  cases plans with
  | nil =>
      obtain rfl := Outcome.mapM_nil_eq_ok.mp written
      have ends : (plain last).text ≠ "" := occupies
      refine ⟨last, [], ?_⟩
      rw [List.flatMap_nil, List.nil_append, occupied_append, apart, occupied_cons ends]
      rfl
  | cons plan plans =>
      obtain ⟨first, others, head, -, rfl⟩ := Outcome.mapM_cons_eq_ok.mp written
      obtain ⟨-, before, encode, decode, -, -, rfl⟩ :=
        legible_classLines (known plan List.mem_cons_self) head
      simp only [List.flatMap_cons, occupied_append, apart, List.nil_append]
      rw [occupied_block (classHeader_ne_empty _)]
      exact ⟨_, _, rfl⟩

/-- A class is found by its header when no later class has its name. -/
theorem blockUnder_classHeader (before body : List Line) {className : String}
    (known : ∀ plan ∈ plans, ReadPlan plan) (written : plans.mapM classLines = .ok classes)
    (marked : last.toList.head? = some '_')
    (fresh : className ∉ plans.map (flatName ·.struct.name)) :
    blockUnder ⟨0, classHeader className⟩
        (before ++ occupied (block (classHeader className) body ++ moduleRest classes last)) =
      deeper (occupied body) := by
  have occupies : last ≠ "" := by
    rintro rfl
    simp at marked
  rw [occupied_append, occupied_block (classHeader_ne_empty className)]
  refine blockUnder_eq before ?_ ?_ ?_
  · intro line inside
    obtain ⟨shallow, -, rfl⟩ := List.mem_map.mp inside
    exact Nat.succ_pos _
  · intro inside
    rcases mem_moduleRest known written (List.mem_filter.mp inside).1 with
      empty | ⟨later, listed, same⟩ | same
    · exact classHeader_ne_empty className empty
    · exact fresh (classHeader_injective same ▸ List.mem_map_of_mem listed)
    · rw [← same] at marked
      simp [classHeader] at marked
  · intro line first
    exact Nat.le_of_eq (depth_head_moduleRest known written occupies line first)

end Rest

/-- The last line of a module, which lists the names of its classes. -/
def exportLine (names : List String) : String :=
  "__all__ = [" ++ String.intercalate ", " (names.map fun name => "\"" ++ name ++ "\"") ++ "]"

/-- The line of exports is printed. -/
theorem printed_exportLine (known : ∀ plan ∈ plans, ReadPlan plan) :
    Printed (exportLine (plans.map (flatName ·.struct.name))) := by
  refine Printed.ofList rfl |>.append (.intercalate (.ofList rfl) ?_) |>.append (.ofList rfl)
  intro text present
  obtain ⟨name, listed, rfl⟩ := List.mem_map.mp present
  obtain ⟨plan, planned, rfl⟩ := List.mem_map.mp listed
  have name := Unbroken.flatName (known plan planned).read.name
  exact Unbroken.append (.ofList rfl) name |>.append (.ofList rfl)

/-- A module is its header and prelude, its classes, and the list of their names. -/
theorem moduleLines_eq_ok {lines : List Line} (written : moduleLines source plans = .ok lines) :
    ∃ classes, plans.mapM classLines = .ok classes ∧ lines = moduleHeader source ++ modulePrelude ++
      moduleRest classes (exportLine (plans.map (flatName ·.struct.name))) := by
  obtain ⟨classes, classesWritten, rfl⟩ := Outcome.returning_eq_ok.mp written
  refine ⟨classes, classesWritten, ?_⟩
  simp only [moduleRest, exportLine, List.map_map, Function.comp_def, List.append_assoc]

/-- The text of a module, cut at the class of a struct. -/
theorem codeLines_moduleLines {first rest : List TypePlan} {plan : TypePlan} {lines : List Line}
    (known : ∀ other ∈ first ++ plan :: rest, ReadPlan other)
    (written : moduleLines source (first ++ plan :: rest) = .ok lines) :
    ∃ before own others last, classLines plan = .ok own ∧
      rest.mapM classLines = .ok others ∧ last.toList.head? = some '_' ∧
      codeLines (layOut lines) = before ++ occupied (own ++ moduleRest others last) := by
  obtain ⟨classes, classesWritten, rfl⟩ := moduleLines_eq_ok written
  obtain ⟨earlier, later, -, laterWritten, rfl⟩ := Outcome.mapM_append_eq_ok.mp classesWritten
  obtain ⟨own, others, ownWritten, othersWritten, rfl⟩ := Outcome.mapM_cons_eq_ok.mp laterWritten
  let last := exportLine ((first ++ plan :: rest).map (flatName ·.struct.name))
  have ownLegible := (legible_classLines (known plan (by simp)) ownWritten).1
  have restKnown : ∀ other ∈ rest, ReadPlan other := by
    intro other listed
    exact known other (List.mem_append_right _ (List.mem_cons_of_mem _ listed))
  have restLegible := legible_moduleRest restKnown othersWritten (printed_exportLine known)
  have regroup :
      moduleHeader source ++ modulePrelude ++ moduleRest (earlier ++ own :: others) last =
        (moduleHeader source ++ modulePrelude ++ earlier.flatMap (gap ++ ·) ++ gap) ++
          (own ++ moduleRest others last) := by
    simp only [moduleRest, List.flatMap_append, List.flatMap_cons, List.append_assoc]
  have cut := codeLines_layOut_append
    (moduleHeader source ++ modulePrelude ++ earlier.flatMap (gap ++ ·) ++ gap)
    (ownLegible.append restLegible)
  rw [← regroup] at cut
  exact ⟨_, own, others, last, ownWritten, othersWritten, by simp [last, exportLine], cut⟩

section Found

variable {texts : List String} (read : Schema.ofTexts texts = .ok schema)
  (written : (pythonModule schema source cache).1 = .ok text)
  (distinct : (schema.names.map flatName).Nodup) {struct : Struct}
  (listed : struct ∈ schema.structs)
include read written distinct listed

/-- The class of a struct is found below its header in the text of a module. -/
theorem blockUnder_of_pythonModule :
    ∃ plan own, plan.struct = struct ∧ ReadPlan plan ∧ classLines plan = .ok own ∧
      ∀ body, own = block (classHeader (flatName struct.name)) body →
        blockUnder ⟨0, classHeader (flatName struct.name)⟩ (codeLines text) =
          deeper (occupied body) := by
  obtain ⟨plans, after, lines, planned, made, rfl⟩ := pythonModule_eq_ok written
  have known := readPlan_of_plans read planned
  have structs := Schema.struct_of_plans planned
  rw [← structs] at listed
  obtain ⟨plan, member, rfl⟩ := List.mem_map.mp listed
  obtain ⟨first, rest, rfl⟩ := List.append_of_mem member
  obtain ⟨before, own, others, last, ownWritten, othersWritten, marked, cut⟩ :=
    codeLines_moduleLines known made
  have restKnown : ∀ other ∈ rest, ReadPlan other := by
    intro other listed
    exact known other (List.mem_append_right _ (List.mem_cons_of_mem _ listed))
  have fresh : flatName plan.struct.name ∉ rest.map (flatName ·.struct.name) := by
    rw [Schema.map_names_of_plans planned, List.map_append, List.map_cons] at distinct
    exact (List.nodup_cons.mp (List.nodup_append.mp distinct).2.1).1
  refine ⟨plan, own, rfl, known plan member, ownWritten, ?_⟩
  rintro body rfl
  rw [cut, blockUnder_classHeader before body restKnown othersWritten marked fresh]

/-- **The codecs of a module follow the outlines of its structs.** -/
theorem pythonSkeleton_of_pythonModule :
    ∃ outline, struct.outline = .ok outline ∧ ∀ direction,
      pythonSkeleton direction (flatName struct.name) text =
        outline.map (SkeletonLine.translate 3 pythonElement) := by
  obtain ⟨plan, own, rfl, known, ownWritten, found⟩ :=
    blockUnder_of_pythonModule read written distinct listed
  obtain ⟨body, outline, outlined, shape, follows⟩ := skeleton_classLines known ownWritten
  refine ⟨outline, outlined, fun direction => ?_⟩
  rw [pythonSkeleton, found body shape, follows direction]

/-- The body of the method that reads the members, from the steps for the members. -/
def decoderBody (className : String) (steps : List (List Line)) : List Line :=
  [plain "msgs = []"]
    ++ block "for _ in range(elems):"
        (plain ("msg = " ++ className ++ "()") :: steps.flatten ++ [plain "msgs.append(msg)"])
    ++ [plain "return pos, msgs"]

/-- The decoder of a class in the text of a module. -/
def pythonDecoder (className text : String) : List Line :=
  blockUnder ⟨1, pythonHeader .decode⟩ (blockUnder ⟨0, classHeader className⟩ (codeLines text))

/-- The decoder of a class has one step for each member. -/
theorem pythonDecoder_of_pythonModule :
    ∃ steps, (struct.members.map FieldStep.ofMember).mapM decodeStep = .ok steps ∧
      pythonDecoder (flatName struct.name) text =
        deeper (deeper (occupied (decoderBody (flatName struct.name) steps))) := by
  obtain ⟨plan, own, rfl, known, ownWritten, found⟩ :=
    blockUnder_of_pythonModule read written distinct listed
  obtain ⟨-, before, encode, decode, -, decodeWritten, shape⟩ := legible_classLines known ownWritten
  obtain ⟨outer, steps, stepsWritten, -, rfl⟩ := decodeMethods_eq_ok known.read.name decodeWritten
  rw [known.belongs.decode] at stepsWritten
  refine ⟨steps, stepsWritten, ?_⟩
  have regroup : before ++ encode ++ (outer ++
        block (pythonHeader .decode) (decoderBody (flatName plan.struct.name) steps)) =
      (before ++ encode ++ outer) ++
        block (pythonHeader .decode) (decoderBody (flatName plan.struct.name) steps) ++ [] := by
    simp only [List.append_assoc, List.append_nil]
  rw [pythonDecoder, found _ shape]
  change blockUnder _ (deeper (occupied (before ++ encode ++ (outer ++
    block (pythonHeader .decode) (decoderBody (flatName plan.struct.name) steps))))) = _
  rw [regroup]
  refine blockUnder_method (pythonHeader_ne_empty .decode) _ _ List.not_mem_nil ?_
  intro line first
  cases first

end Found

/-! ### Names of classes -/

/-- A class name that passes is free in Python and in the module. -/
theorem checkClassName_eq_ok {earlier : List String} {struct : String}
    (checked : checkClassName earlier struct = .ok ()) :
    flatName struct ∉ pythonKeywords ∧ flatName struct ∉ usedNames ∧
      isLoopName (flatName struct) = false ∧
      ∀ other ∈ earlier, flatName other ≠ flatName struct := by
  unfold checkClassName at checked
  split at checked
  · cases checked
  · next keyword =>
      split at checked
      · cases checked
      · next clash =>
          rw [Bool.or_eq_true, not_or] at clash
          split at checked
          · cases checked
          · next absent =>
              refine ⟨fun word => keyword (List.contains_iff_mem.mpr word),
                fun used => clash.1 (List.contains_iff_mem.mpr used),
                Bool.eq_false_iff.mpr clash.2, fun other listed same => ?_⟩
              exact List.find?_eq_none.mp absent other listed (beq_iff_eq.mpr same)

/-- Names that pass their checks pass them struct by struct, each after those before it. -/
theorem checkNames_cons_eq_ok {struct : Struct} {rest : List Struct} {earlier : List String}
    (checked : Backend.checkNames earlier (struct :: rest) = .ok ()) :
    checkClassName earlier struct.name = .ok () ∧
      (∀ member ∈ struct.members, checkMemberName struct.name member = .ok ()) ∧
      Backend.checkNames (earlier ++ [struct.name]) rest = .ok () := by
  obtain ⟨_, own, after⟩ := Outcome.bind_eq_ok.mp checked
  obtain ⟨_, members, others⟩ := Outcome.bind_eq_ok.mp after
  exact ⟨own, Outcome.forM_eq_ok.mp members, others⟩

private theorem nodup_of_checkNames {structs : List Struct} {earlier : List String}
    (checked : Backend.checkNames earlier structs = .ok ()) :
    (structs.map (flatName ·.name)).Nodup ∧
      ∀ struct ∈ structs, ∀ other ∈ earlier, flatName other ≠ flatName struct.name := by
  induction structs generalizing earlier with
  | nil => exact ⟨List.nodup_nil, List.forall_mem_nil _⟩
  | cons struct structs ih =>
      obtain ⟨own, -, others⟩ := checkNames_cons_eq_ok checked
      obtain ⟨-, -, -, fresh⟩ := checkClassName_eq_ok own
      obtain ⟨distinct, apart⟩ := ih others
      refine ⟨?_, List.forall_mem_cons.mpr ⟨fresh, fun later listed other member =>
        apart later listed other (List.mem_append_left _ member)⟩⟩
      rw [List.map_cons, List.nodup_cons]
      refine ⟨fun again => ?_, distinct⟩
      obtain ⟨later, listed, same⟩ := List.mem_map.mp again
      exact apart later listed struct.name (List.mem_append_right _ List.mem_cons_self) same.symm

/-- The class names that pass are free in Python and in the module. -/
theorem free_of_checkNames {structs : List Struct} {earlier : List String}
    (checked : Backend.checkNames earlier structs = .ok ()) :
    ∀ struct ∈ structs, flatName struct.name ∉ pythonKeywords ∧
      flatName struct.name ∉ usedNames ∧ isLoopName (flatName struct.name) = false := by
  induction structs generalizing earlier with
  | nil => exact List.forall_mem_nil _
  | cons struct structs ih =>
      obtain ⟨own, -, others⟩ := checkNames_cons_eq_ok checked
      obtain ⟨keyword, used, loop, -⟩ := checkClassName_eq_ok own
      exact List.forall_mem_cons.mpr ⟨⟨keyword, used, loop⟩, ih others⟩

/-- Only schemas whose names pass have a module. -/
theorem checkNames_of_pythonModule (written : (pythonModule schema source cache).1 = .ok text) :
    Backend.checkNames [] schema.structs = .ok () := by
  unfold pythonModule at written
  split at written
  · cases written
  · next checked => exact checked

/-- A module has one class for each struct. -/
theorem nodup_classNames (written : (pythonModule schema source cache).1 = .ok text) :
    (schema.names.map flatName).Nodup := by
  have distinct := (nodup_of_checkNames (checkNames_of_pythonModule written)).1
  rwa [Schema.names, List.map_map]

end Wireform.Backend
