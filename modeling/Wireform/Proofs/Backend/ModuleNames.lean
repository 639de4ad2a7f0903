import Wireform.Proofs.Backend.ClassBody
import Wireform.Proofs.Backend.Fields
import Wireform.Proofs.Source.Printing
import Wireform.Proofs.Text.Identifiers

/-! # Names of a module as identifiers

The names in a generated module are words of the files: a class has the name of its struct with
underscores in place of the dots, and a slot has the name of a member. None is a keyword. A word may
have characters that no identifier takes, such as a superscript, and it may begin with a letter with
which no identifier begins. A name is an identifier exactly if it has none of these
(`Wireform.Backend.isIdentifier_flatName`), and it is written in either case
(`Wireform.Backend.isIdentifier_iff_isClean`). The names are read off the text of the module.
-/

namespace Wireform.Backend

open Text (isBarredStart isIdentifier isIdentifierContinue isIdentifierStart isStray isWordChar)

/-! ### Words as identifiers -/

/-- Whether a name has no character that keeps it from being an identifier. -/
def isClean : List Char → Bool
  | [] => true
  | first :: rest => !isBarredStart first && rest.all (!isStray ·)

private theorem isIdentifierStart_of_isNameStart {c : Char} (start : Source.isNameStart c = true) :
    isIdentifierStart c = !isBarredStart c := by
  rcases Bool.or_eq_true_iff.mp start with letter | underscore
  · rw [Bool.eq_iff_iff, Text.isIdentifierStart_iff letter, Bool.not_eq_true']
  · obtain rfl := beq_iff_eq.mp underscore
    decide +kernel

/-- A character of a dotted name, written into a name without dots. -/
theorem isIdentifierContinue_flat {c : Char} (part : Source.isNamePart c = true) :
    isIdentifierContinue (if c = '.' then '_' else c) = !isStray c := by
  rw [Source.isNamePart, Bool.or_eq_true, Bool.or_eq_true] at part
  rcases part with (word | underscore) | dot
  · have undotted : c ≠ '.' := by
      rintro rfl
      exact absurd word (by decide +kernel)
    rw [if_neg undotted, Bool.eq_iff_iff, Text.isIdentifierContinue_iff word, Bool.not_eq_true']
  · obtain rfl := beq_iff_eq.mp underscore
    decide +kernel
  · obtain rfl := beq_iff_eq.mp dot
    decide +kernel

/-- **A word becomes an identifier if it is clean.** -/
theorem isIdentifier_flatName {name : String} (word : Source.Word name.toList) :
    isIdentifier (flatName name).toList = isClean name.toList := by
  obtain ⟨first, rest, shape, start⟩ := word.start
  have undotted : first ≠ '.' := by
    rintro rfl
    exact absurd start (by decide +kernel)
  have parts : (rest.map fun c => if c = '.' then '_' else c).all isIdentifierContinue =
      rest.all (!isStray ·) := by
    rw [List.all_map, Bool.eq_iff_iff, List.all_eq_true, List.all_eq_true]
    refine forall₂_congr fun c inside => ?_
    have part := word.parts c (shape ▸ List.mem_cons_of_mem _ inside)
    rw [Function.comp, isIdentifierContinue_flat part]
  rw [flatName, String.toList_ofList, shape, List.map_cons, if_neg undotted, isIdentifier, isClean,
    isIdentifierStart_of_isNameStart start, parts]

private theorem flatName_of_undotted {name : String} (undotted : '.' ∉ name.toList) :
    flatName name = name := by
  have same : ∀ c ∈ name.toList, (if c = '.' then '_' else c) = id c := by
    intro c inside
    have other : c ≠ '.' := by
      rintro rfl
      exact undotted inside
    rw [if_neg other, id]
  rw [flatName, List.map_congr_left same, List.map_id, String.ofList_toList]

/-! ### Names of a schema -/

private theorem word_kept : Parser.KeptByQualifying fun name => Source.Word name.toList := by
  intro package name left right
  simpa using left.append right

/-- The names in a schema are words. -/
theorem words_of_ofTexts {texts : List String} {schema : Schema}
    (read : Schema.ofTexts texts = .ok schema) :
    ∀ struct ∈ schema.structs, struct.ReadFrom fun name => Source.Word name.toList := by
  intro struct listed
  obtain ⟨package, taken, derived⟩ := Schema.derived_of_ofTexts read listed
  exact derived.readFrom word_kept fun _ named => named.1

/-! ### Names in the text of a module -/

/-- The outermost lines of the classes of a module and of what follows them. -/
theorem textsAt_moduleRest {plans : List TypePlan} {classes : List (List Line)} {last : String}
    (known : ∀ plan ∈ plans, ReadPlan plan) (written : plans.mapM classLines = .ok classes)
    (occupies : last ≠ "") :
    textsAt 0 (occupied (moduleRest classes last)) =
      plans.map (classHeader <| flatName ·.struct.name) ++ [last] := by
  have headers : textsAt 0 (occupied (classes.flatMap (gap ++ ·))) =
      plans.map (classHeader <| flatName ·.struct.name) := by
    induction plans generalizing classes with
    | nil =>
        obtain rfl := Outcome.mapM_nil_eq_ok.mp written
        rfl
    | cons plan plans ih =>
        obtain ⟨knownFirst, knownRest⟩ := List.forall_mem_cons.mp known
        obtain ⟨own, others, ownWritten, othersWritten, rfl⟩ :=
          Outcome.mapM_cons_eq_ok.mp written
        obtain ⟨-, before, encode, decode, -, -, rfl⟩ := legible_classLines knownFirst ownWritten
        have apart : textsAt 0 (occupied gap) = [] := rfl
        have header : textsAt 0 (occupied (block (classHeader (flatName plan.struct.name))
            (before ++ encode ++ decode))) = [classHeader (flatName plan.struct.name)] := by
          rw [textsAt_occupied, textsAt_zero_block]
          simp [classHeader]
        rw [List.flatMap_cons, occupied_append, occupied_append, textsAt_append, textsAt_append,
          apart, header, ih knownRest othersWritten]
        rfl
  have ends : textsAt 0 (occupied (gap ++ [plain last])) = [last] := by
    rw [textsAt_occupied, textsAt_append]
    simp [gap, occupies]
  rw [moduleRest, List.append_assoc, occupied_append, textsAt_append, headers, ends]

private theorem quotedTexts_exportLine {names : List String}
    (plain : ∀ name ∈ names, '"' ∉ name.toList) :
    quotedTexts none (exportLine names).toList = names := by
  have mark : '"' ∉ "__all__ = [".toList := by simp
  rw [exportLine, String.toList_append, String.toList_append, List.append_assoc,
    quotedTexts_outside mark, quotedTexts_intercalate plain (by simp)]

/-- The class names of a schema are read back from the list of them. -/
theorem exportedNames_of_ofTexts {texts : List String} {schema : Schema}
    (read : Schema.ofTexts texts = .ok schema) :
    quotedTexts none (exportLine (schema.names.map flatName)).toList =
      schema.names.map flatName := by
  apply quotedTexts_exportLine
  intro name present
  obtain ⟨qualified, listed, rfl⟩ := List.mem_map.mp present
  obtain ⟨struct, inside, rfl⟩ := List.mem_map.mp listed
  exact not_mem_flatName (Schema.readFrom_of_ofTexts read struct inside).name rfl

/-- The outermost lines of a module end with the headers of its classes and the list of their
names. -/
theorem suffix_textsAt_of_pythonModule {texts : List String} {schema : Schema}
    {source : Option String} {cache : FingerprintCache} {text : String}
    (read : Schema.ofTexts texts = .ok schema)
    (written : (pythonModule schema source cache).1 = .ok text) :
    (schema.names.map fun name => classHeader (flatName name)) ++
        [exportLine (schema.names.map flatName)] <:+ textsAt 0 (codeLines text) := by
  obtain ⟨plans, after, lines, planned, made, rfl⟩ := pythonModule_eq_ok written
  obtain ⟨classes, classesWritten, rfl⟩ := moduleLines_eq_ok made
  have known := readPlan_of_plans read planned
  have occupies : exportLine (plans.map (flatName ·.struct.name)) ≠ "" := by simp [exportLine]
  rw [Schema.map_names_of_plans planned, Schema.map_names_of_plans planned,
    codeLines_layOut_append _ (legible_moduleRest known classesWritten (printed_exportLine known)),
    textsAt_append, textsAt_moduleRest known classesWritten occupies]
  exact List.suffix_append _ _

/-- **Names are identifiers exactly if they are clean.** In every module, the outermost lines end
with one header for each class and a list of the names of all classes. No class has a keyword for a
name, and no slot is one. The name of a class is an identifier exactly if the name of its struct is
clean, and a slot is an identifier exactly if it is clean. -/
theorem isIdentifier_iff_isClean {texts : List String} {schema : Schema} {source : Option String}
    {cache : FingerprintCache} {text : String} (read : Schema.ofTexts texts = .ok schema)
    (written : (pythonModule schema source cache).1 = .ok text) :
    (∃ last, quotedTexts none last.toList = schema.names.map flatName ∧
      (schema.names.map fun name => classHeader (flatName name)) ++ [last] <:+
        textsAt 0 (codeLines text)) ∧
    ∀ struct ∈ schema.structs,
      flatName struct.name ∉ pythonKeywords ∧
      (isIdentifier (flatName struct.name).toList = true ↔ isClean struct.name.toList = true) ∧
      classSlots (pythonClass (flatName struct.name) text) = struct.members.map (·.name) ∧
      ∀ name ∈ classSlots (pythonClass (flatName struct.name) text),
        name ∉ pythonKeywords ∧
        (isIdentifier name.toList = true ↔ isClean name.toList = true) := by
  refine ⟨⟨_, exportedNames_of_ofTexts read,
    suffix_textsAt_of_pythonModule read written⟩, fun struct listed => ?_⟩
  have words := words_of_ofTexts read struct listed
  have checked := checkNames_of_pythonModule written
  obtain ⟨slots, -⟩ := classBody_of_pythonModule read written listed
  refine ⟨(free_of_checkNames checked struct listed).1, ?_, slots, ?_⟩
  · rw [isIdentifier_flatName words.name]
  · intro name slot
    rw [slots] at slot
    obtain ⟨member, declared, rfl⟩ := List.mem_map.mp slot
    refine ⟨(checkMemberName_eq_ok
      (checkMemberName_of_checkNames checked struct listed member declared)).1, ?_⟩
    have undotted := (undotted_of_ofTexts read listed member declared).not_mem
    have same := isIdentifier_flatName (words.members member declared).name
    rw [flatName_of_undotted undotted] at same
    rw [same]

/-- A package may have a part that starts with a digit, and members may have letters and decimal
digits of any script. -/
theorem isIdentifier_iff_isClean_grid :
    ∃ schema text,
      Schema.ofTexts ["package geo.2d; struct grid \x7b double größe; byte x٣; \x7d"] = .ok schema ∧
      (pythonModule schema none []).1 = .ok text ∧
      isIdentifier "geo_2d_grid".toList = true ∧
      classSlots (pythonClass "geo_2d_grid" text) = ["größe", "x٣"] ∧
      ∀ name ∈ classSlots (pythonClass "geo_2d_grid" text),
        name ∉ pythonKeywords ∧ isIdentifier name.toList = true := by
  let struct := Struct.withSignatureHash ⟨"geo.2d.grid",
    [⟨"größe", .primitive .double, []⟩, ⟨"x٣", .primitive .byte, []⟩], 0⟩
  let schema : Schema := ⟨[struct]⟩
  have read : Schema.ofTexts ["package geo.2d; struct grid \x7b double größe; byte x٣; \x7d"] =
      .ok schema := by
    decide +kernel
  obtain ⟨text, written⟩ : ∃ text, (pythonModule schema none []).1 = .ok text :=
    Outcome.exists_of_isOk (by decide +kernel)
  have own : flatName struct.name = "geo_2d_grid" := by decide +kernel
  obtain ⟨-, identifier, slots, members⟩ :=
    (isIdentifier_iff_isClean read written).2 struct List.mem_cons_self
  rw [own] at identifier slots members
  have listed : classSlots (pythonClass "geo_2d_grid" text) = ["größe", "x٣"] := slots
  have clean : ∀ name ∈ ["größe", "x٣"], isClean name.toList = true := by decide +kernel
  refine ⟨schema, text, read, written, identifier.mpr (by decide +kernel), listed, ?_⟩
  intro name slot
  obtain ⟨keyword, same⟩ := members name slot
  rw [listed] at slot
  exact ⟨keyword, same.mpr (clean name slot)⟩

/-- **A slot need not be an identifier.** A superscript may stand in the name of a member. -/
theorem slot_of_superscript :
    ∃ schema text,
      Schema.ofTexts ["struct a \x7b int32_t x²; \x7d"] = .ok schema ∧
      (pythonModule schema none []).1 = .ok text ∧
      "x²" ∈ classSlots (pythonClass "a" text) ∧ isIdentifier "x²".toList = false := by
  let struct := Struct.withSignatureHash ⟨"a", [⟨"x²", .primitive .int32, []⟩], 0⟩
  let schema : Schema := ⟨[struct]⟩
  have read : Schema.ofTexts ["struct a \x7b int32_t x²; \x7d"] = .ok schema := by
    decide +kernel
  obtain ⟨text, written⟩ : ∃ text, (pythonModule schema none []).1 = .ok text :=
    Outcome.exists_of_isOk (by decide +kernel)
  have own : flatName struct.name = "a" := by decide +kernel
  have listed : struct ∈ schema.structs := List.mem_cons_self
  obtain ⟨slots, -⟩ := classBody_of_pythonModule read written listed
  rw [own] at slots
  refine ⟨schema, text, read, written, ?_, by decide +kernel⟩
  rw [slots]
  exact List.mem_cons_self

end Wireform.Backend
