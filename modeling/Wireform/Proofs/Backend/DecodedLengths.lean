import Wireform.Proofs.Backend.MatlabLengths
import Wireform.Proofs.Backend.PythonLengths

/-! # Lengths in generated decoders

Both backends write their decoders from the members alone, and neither looks up whether a length has
been read by the time it is used. That it has is due to the schema, whose validation asks for an
earlier member of an integer type without dimensions, and to the order of the steps
(`Wireform.Backend.lengths_first`).
-/

namespace Wireform.Backend

/-- **Decoders read lengths before they use them.** In the decoders of a struct, every block that
opens on a field comes after the line that stores a number in this field. The line stands in no loop
of a dimension, the field belongs to a member of an integer type without dimensions, and no later
line assigns to it. The step of each member tests every length of the member for being negative
before its first loop, and once. The files of MATLAB functions are told apart by the stems of the
structs, while a module has a class of its own for each struct. -/
theorem lengths_first {texts : List String} {schema : Schema}
    (read : Schema.ofTexts texts = .ok schema) {struct : Struct}
    (listed : struct ∈ schema.structs) :
    (∀ source cache text, (pythonModule schema source cache).1 = .ok text →
      pythonWording.LengthsFirst struct (pythonDecoder (flatName struct.name) text)) ∧
    ∀ cache files, (matlabFiles schema cache).1 = .ok files →
      (schema.names.map matlabName).Nodup →
        ∃ decodeText,
          files.lookup (matlabName struct.name ++ "_decode_nohash.m") = some decodeText ∧
          matlabWording.LengthsFirst struct (codeLines decodeText) := by
  refine ⟨fun source cache text python => lengthsFirst_pythonDecoder read python listed, ?_⟩
  intro cache files matlab stems
  have sound : struct.Sound schema.names :=
    (Schema.validate_eq_ok_iff.mp (Schema.ofTexts_eq_ok_iff.mp read).2).2 struct listed
  have undotted := undotted_of_ofTexts read listed
  obtain ⟨plans, after, planned, found⟩ := lookup_matlabFiles matlab stems
  have known := readPlan_of_plans read planned
  rw [← Schema.struct_of_plans planned] at listed
  obtain ⟨plan, member, rfl⟩ := List.mem_map.mp listed
  obtain ⟨own, ownWritten, lookups⟩ := found plan member
  obtain ⟨-, _, decodeText, -, decodeWritten, -, decodeFile⟩ := structFiles_eq_ok ownWritten
  exact ⟨decodeText, lookups _ decodeFile,
    lengthsFirst_decodeMembersFile sound (known plan member) undotted decodeWritten⟩

/-- In a grid, the number of columns is stored before it is tested for the cells. -/
theorem lengths_first_grid :
    ∃ schema text files decodeText,
      Schema.ofTexts ["struct grid \x7b int32_t n; double cells[2][n]; \x7d"] = .ok schema ∧
      (pythonModule schema none []).1 = .ok text ∧
      (matlabFiles schema []).1 = .ok files ∧
      files.lookup "grid_decode_nohash.m" = some decodeText ∧
      (∃ before between after, pythonDecoder "grid" text =
        before ++ ⟨3, "msg.n = _v"⟩ :: (between ++ ⟨3, "if msg.n < 0:"⟩ :: after)) ∧
      ∃ before between after, codeLines decodeText =
        before ++ ⟨2, "S(ix).n = t(1);"⟩ :: (between ++ ⟨2, "if S(ix).n < 0"⟩ :: after) := by
  let cells : Member := ⟨"cells", .primitive .double, [.constant "2", .dynamic "n"]⟩
  let grid : Struct := ⟨"grid", [⟨"n", .primitive .int32, []⟩, cells],
    13074426908703058587⟩
  let schema : Schema := ⟨[grid]⟩
  obtain ⟨text, python⟩ : ∃ text, (pythonModule schema none []).1 = .ok text :=
    Outcome.exists_of_isOk (by decide +kernel)
  obtain ⟨files, matlab⟩ : ∃ files, (matlabFiles schema []).1 = .ok files :=
    Outcome.exists_of_isOk (by decide +kernel)
  have read : Schema.ofTexts ["struct grid \x7b int32_t n; double cells[2][n]; \x7d"] =
      .ok schema := by decide +kernel
  obtain ⟨inModule, inFile⟩ := lengths_first read (List.mem_cons_self : grid ∈ schema.structs)
  obtain ⟨decodeText, found, inFile⟩ := inFile [] files matlab (by decide +kernel)
  have listed : cells ∈ grid.members := by simp [grid]
  have among : Dimension.dynamic "n" ∈ cells.dimensions := by simp [cells]
  have asRead := Schema.readFrom_of_ofTexts read grid List.mem_cons_self
  have undotted : Undotted "n" :=
    .of_written ((asRead.members cells listed).dimensions _ among) rfl
  have className : flatName "grid" = "grid" := by decide +kernel
  have fileName : matlabName "grid" ++ "_decode_nohash.m" = "grid_decode_nohash.m" := by
    decide +kernel
  have pythonLines : pythonWording.stored "n" = "msg.n = _v" ∧
      pythonWording.test "n" = "if msg.n < 0:" := by decide +kernel
  have matlabLines : matlabWording.stored "n" = "S(ix).n = t(1);" ∧
      matlabWording.test "n" = "if S(ix).n < 0" := by decide +kernel
  have stored := (inModule none [] text python).stored_before_test isRegular_pythonWording listed
    among rfl undotted
  have storedInFile := inFile.stored_before_test isRegular_matlabWording listed among rfl undotted
  change ∃ before between after, pythonDecoder (flatName "grid") text = before ++
    ⟨3, pythonWording.stored "n"⟩ :: (between ++ ⟨3, pythonWording.test "n"⟩ :: after) at stored
  change ∃ before between after, codeLines decodeText = before ++
    ⟨2, matlabWording.stored "n"⟩ :: (between ++ ⟨2, matlabWording.test "n"⟩ :: after)
    at storedInFile
  change files.lookup (matlabName "grid" ++ "_decode_nohash.m") = some decodeText at found
  rw [className, pythonLines.1, pythonLines.2] at stored
  rw [matlabLines.1, matlabLines.2] at storedInFile
  rw [fileName] at found
  exact ⟨schema, text, files, decodeText, read, python, matlab, found, stored, storedInFile⟩

end Wireform.Backend
