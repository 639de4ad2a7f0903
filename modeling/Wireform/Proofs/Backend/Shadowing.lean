import Wireform.Proofs.Backend.PythonScope
import Wireform.Proofs.Schema.Validity

/-! # Names that the classes of a module hide

A class of a generated module hides whatever else bears its name. The names of classes differ, none
is a keyword, and none is a name that classes use for something else, with one exception: a struct
may be called `bytearray`, and the encoder of every class calls that builtin
(`Wireform.Backend.shadows_iff_bytearray`). What classes use is read off the text of the module.
-/

namespace Wireform.Backend

/-! ### Reserved names -/

private theorem isDecimal_of_isDigit {c : Char} (digit : c.isDigit = true) :
    Text.isDecimal c = true := by
  have range : 48 ≤ c.toNat ∧ c.toNat ≤ 57 := by
    simpa [Char.isDigit, UInt32.le_iff_toNat_le] using digit
  simp [Text.isDecimal, Text.decimalValue?, Text.decimalZeros, range.1,
    Nat.lt_succ_of_le range.2]

private theorem isCounter_toString (level : Nat) : isCounter (toString level).toList = true := by
  have digits : (toString level).toList.dropWhile Text.isDecimal = [] :=
    List.dropWhile_eq_nil_iff.mpr fun _ member =>
      isDecimal_of_isDigit (isDigit_of_mem_toString member)
  have written : (toString level).toList ≠ [] := by
    have numeral : (toString level).toList = Nat.toDigits 10 level := Nat.toList_repr
    rw [numeral, Nat.toDigits_eq_if (by omega)]
    split <;> simp
  rw [isCounter, digits]
  simpa only [Bool.not_eq_true', List.isEmpty_eq_false_iff] using written

/-- The words for counters and for lists make names of levels with every numeral. -/
theorem isLoopName_append {word : String} (known : word = "d" ∨ word = "_t") (level : Nat) :
    isLoopName (word ++ toString level) = true := by
  rw [isLoopName, String.toList_append]
  rcases known with rfl | rfl <;> exact isCounter_toString level

/-- All names that classes use but one are reserved. -/
theorem IsRelied.reserved {name : String} (relied : IsRelied name) :
    name ∈ usedNames ∨ isLoopName name = true ∨ name = "bytearray" := by
  have helpers : ∀ name ∈ preludeNames, name ∈ usedNames := by
    simp [preludeNames_eq, usedNames, packerNames, Primitive.all, packer?]
  have builtins : ∀ name ∈ calledBuiltins, name ∈ usedNames ∨ name = "bytearray" := by
    simp [calledBuiltins, usedNames]
  have inMethods : ∀ name ∈ methodVariables, name ∈ usedNames := by
    simp [methodVariables, usedNames]
  cases relied with
  | helper listed => exact .inl (helpers name listed)
  | builtin listed => exact (builtins name listed).imp_right .inr
  | inMethod listed => exact .inl (inMethods name listed)
  | counter level same => exact .inr (.inl (same ▸ isLoopName_append (.inl rfl) level))
  | list level same => exact .inr (.inl (same ▸ isLoopName_append (.inr rfl) level))

private theorem isRelied_bytearray : IsRelied "bytearray" := .builtin (by simp [calledBuiltins])

/-! ### Classes in the text of a module -/

/-- The lines of a class in the text of a module, from its header on. -/
def pythonClass (className text : String) : List Line :=
  ⟨0, classHeader className⟩ :: blockUnder ⟨0, classHeader className⟩ (codeLines text)

section Modules

variable {texts : List String} {schema : Schema} {source : Option String}
  {cache : FingerprintCache} {text : String} (read : Schema.ofTexts texts = .ok schema)
  (written : (pythonModule schema source cache).1 = .ok text)
include read written

/-- The class of a struct in the text is the one that was written for its plan. -/
theorem exists_pythonClass_eq {struct : Struct} (listed : struct ∈ schema.structs) :
    ∃ plan lines, plan.struct = struct ∧ ReadPlan plan ∧ classLines plan = .ok lines ∧
      pythonClass (flatName struct.name) text = occupied lines := by
  obtain ⟨plan, lines, rfl, known, linesWritten, found⟩ :=
    blockUnder_of_pythonModule read written (nodup_classNames written) listed
  refine ⟨plan, lines, rfl, known, linesWritten, ?_⟩
  obtain ⟨-, before, encode, decode, -, -, shape⟩ := legible_classLines known linesWritten
  rw [pythonClass, found _ shape, shape, occupied_block (classHeader_ne_empty _)]
  rfl

/-- The types of a schema have classes in its module. -/
theorem hasClass_of_pythonModule {type : String} (defined : type ∈ schema.names) :
    HasClass (schema.names.map flatName) type := by
  obtain ⟨struct, listed, rfl⟩ := List.mem_map.mp defined
  exact ⟨(Schema.readFrom_of_ofTexts read struct listed).name, List.mem_map_of_mem defined,
    (free_of_checkNames (checkNames_of_pythonModule written) struct listed).1⟩

/-- The classes of a module use known names alone. -/
theorem usesKnown_pythonClass {struct : Struct} (listed : struct ∈ schema.structs) :
    ∀ line ∈ pythonClass (flatName struct.name) text,
      UsesKnown (schema.names.map flatName) line := by
  obtain ⟨plan, lines, rfl, known, linesWritten, same⟩ :=
    exists_pythonClass_eq read written listed
  have sound : plan.struct.Sound schema.names :=
    (Schema.validate_eq_ok_iff.mp (Schema.ofTexts_eq_ok_iff.mp read).2).2 plan.struct listed
  have served : ∀ member ∈ plan.struct.members,
      IsServed (schema.names.map flatName) member.type := by
    intro member declared name compound
    obtain ⟨earlier, soundMember⟩ := sound.exists_of_mem declared
    exact hasClass_of_pythonModule read written (soundMember.type name compound)
  have own := hasClass_of_pythonModule read written (List.mem_map_of_mem listed)
  rw [same]
  intro line inside
  exact usesKnown_classLines known own served linesWritten line (List.mem_filter.mp inside).1

/-- The encoder of every class calls the builtin `bytearray`. -/
theorem buffer_mem_pythonClass {struct : Struct} (listed : struct ∈ schema.structs) :
    ⟨2, "buf = bytearray(self.encoded_size())"⟩ ∈ pythonClass (flatName struct.name) text := by
  obtain ⟨plan, lines, rfl, known, linesWritten, same⟩ :=
    exists_pythonClass_eq read written listed
  obtain ⟨-, before, encode, decode, encodeWritten, -, rfl⟩ :=
    legible_classLines known linesWritten
  obtain ⟨steps, -, rfl⟩ := Outcome.returning_eq_ok.mp encodeWritten
  rw [same]
  refine List.mem_filter.mpr ⟨?_, by decide⟩
  simp [block, plain, deeper, Line.deeper]

end Modules

private theorem bytearray_mem_namesIn :
    "bytearray" ∈ namesIn "buf = bytearray(self.encoded_size())" := by
  decide +kernel

/-- **Classes hide nothing but `bytearray`.** In every module, the names of the classes differ, and
none is a keyword. Each name that a class uses is a keyword, a class, a name on which classes rely,
or an attribute that the body of the class assigns; every class uses `bytearray`. A class has a name
on which classes rely exactly if it is called `bytearray`. -/
theorem shadows_iff_bytearray {texts : List String} {schema : Schema} {source : Option String}
    {cache : FingerprintCache} {text : String} (read : Schema.ofTexts texts = .ok schema)
    (written : (pythonModule schema source cache).1 = .ok text) :
    (schema.names.map flatName).Nodup ∧
      ∀ struct ∈ schema.structs,
        (∀ line ∈ pythonClass (flatName struct.name) text,
          UsesKnown (schema.names.map flatName) line) ∧
        (∃ line ∈ pythonClass (flatName struct.name) text, "bytearray" ∈ namesIn line.text) ∧
        flatName struct.name ∉ pythonKeywords ∧
        (IsRelied (flatName struct.name) ↔ flatName struct.name = "bytearray") := by
  refine ⟨nodup_classNames written, fun struct listed => ?_⟩
  obtain ⟨keyword, unused, loop⟩ :=
    free_of_checkNames (checkNames_of_pythonModule written) struct listed
  refine ⟨usesKnown_pythonClass read written listed,
    ⟨_, buffer_mem_pythonClass read written listed, bytearray_mem_namesIn⟩, keyword, ?_, ?_⟩
  · intro relied
    rcases relied.reserved with used | counts | same
    · exact absurd used unused
    · exact absurd counts (Bool.eq_false_iff.mp loop)
    · exact same
  · intro same
    rw [same]
    exact isRelied_bytearray

/-- The classes of a track and of its points hide nothing. -/
theorem shadows_iff_bytearray_track :
    ∃ schema text,
      Schema.ofTexts ["struct track \x7b int32_t n; point steps[n]; \x7d",
          "struct point \x7b double x; \x7d"] = .ok schema ∧
      (pythonModule schema none []).1 = .ok text ∧
      ∀ className ∈ ["track", "point"],
        (∀ line ∈ pythonClass className text, UsesKnown ["track", "point"] line) ∧
        ¬ IsRelied className := by
  let track : Struct := ⟨"track", [⟨"n", .primitive .int32, []⟩,
    ⟨"steps", .compound "point", [.dynamic "n"]⟩], 4997918303912349343⟩
  let point : Struct := ⟨"point", [⟨"x", .primitive .double, []⟩], 460655643848370160⟩
  let schema : Schema := ⟨[track, point]⟩
  have read : Schema.ofTexts ["struct track \x7b int32_t n; point steps[n]; \x7d",
      "struct point \x7b double x; \x7d"] = .ok schema := by decide +kernel
  obtain ⟨text, written⟩ : ∃ text, (pythonModule schema none []).1 = .ok text :=
    Outcome.exists_of_isOk (by decide +kernel)
  have names : schema.names.map flatName = ["track", "point"] := by decide +kernel
  obtain ⟨-, each⟩ := shadows_iff_bytearray read written
  rw [names] at each
  have own : flatName "track" = "track" ∧ flatName "point" = "point" := by decide +kernel
  obtain ⟨trackUses, -, -, trackRelied⟩ := each track (by simp [schema])
  obtain ⟨pointUses, -, -, pointRelied⟩ := each point (by simp [schema])
  rw [own.1] at trackUses trackRelied
  rw [own.2] at pointUses pointRelied
  refine ⟨schema, text, read, written, ?_⟩
  simp only [List.forall_mem_cons, List.not_mem_nil, false_imp_iff, implies_true, and_true]
  exact ⟨⟨trackUses, fun relied => absurd (trackRelied.mp relied) (by decide)⟩,
    pointUses, fun relied => absurd (pointRelied.mp relied) (by decide)⟩

/-- **A class may hide a builtin that it calls.** A struct `bytearray` is accepted, and the encoder
of its class calls `bytearray` for a buffer. -/
theorem buffer_of_struct_bytearray :
    ∃ schema text,
      Schema.ofTexts ["struct bytearray \x7b int32_t x; \x7d"] = .ok schema ∧
      schema.names.map flatName = ["bytearray"] ∧
      (pythonModule schema none []).1 = .ok text ∧
      ∃ line ∈ pythonClass "bytearray" text,
        line.text = "buf = bytearray(self.encoded_size())" ∧ "bytearray" ∈ namesIn line.text := by
  let struct : Struct := ⟨"bytearray", [⟨"x", .primitive .int32, []⟩], 7607385575789847566⟩
  let schema : Schema := ⟨[struct]⟩
  have read : Schema.ofTexts ["struct bytearray \x7b int32_t x; \x7d"] = .ok schema := by
    decide +kernel
  obtain ⟨text, written⟩ : ∃ text, (pythonModule schema none []).1 = .ok text :=
    Outcome.exists_of_isOk (by decide +kernel)
  have names : schema.names.map flatName = ["bytearray"] := by decide +kernel
  have listed : struct ∈ schema.structs := List.mem_cons_self
  have own : flatName "bytearray" = "bytearray" := by decide +kernel
  have buffer := buffer_mem_pythonClass read written listed
  change _ ∈ pythonClass (flatName "bytearray") text at buffer
  rw [own] at buffer
  exact ⟨schema, text, read, names, written, _, buffer, rfl, bytearray_mem_namesIn⟩

end Wireform.Backend
