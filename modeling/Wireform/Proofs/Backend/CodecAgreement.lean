import Wireform.Proofs.Backend.MatlabNames
import Wireform.Proofs.Backend.PythonModules

/-! # Agreement of generated codecs

Encoders and decoders are written by four routines, two for each backend, that walk the members and
dimensions of a struct on their own. Their texts agree: whatever schema is read from type definition
files, the codecs of each struct have one skeleton, which is the outline of the struct
(`Wireform.Backend.codecs_follow_outline`). A backend adds the levels at which its codec stands and
its names for the types.
-/

namespace Wireform.Backend

/-- **The generated codecs of a struct agree.** The Python encoder and decoder of a struct have one
skeleton, and so have its MATLAB encoder and decoder. Both skeletons are the outline of the struct:
its members in the order of their definition, each below its loops from the outermost in, with the
same extents and the same type. -/
theorem codecs_follow_outline {texts : List String} {schema : Schema} {source : Option String}
    {cache other : FingerprintCache} {text : String} {files : List (String × String)}
    (read : Schema.ofTexts texts = .ok schema)
    (python : (pythonModule schema source cache).1 = .ok text)
    (matlab : (matlabFiles schema other).1 = .ok files)
    (classNames : (schema.names.map flatName).Nodup)
    (stems : (schema.names.map matlabName).Nodup)
    {struct : Struct} (listed : struct ∈ schema.structs) :
    ∃ outline encodeText decodeText, struct.outline = .ok outline ∧
      files.lookup (matlabName struct.name ++ "_encode_nohash.m") = some encodeText ∧
      files.lookup (matlabName struct.name ++ "_decode_nohash.m") = some decodeText ∧
      pythonSkeleton .encode (flatName struct.name) text =
        outline.map (SkeletonLine.translate 3 pythonElement) ∧
      pythonSkeleton .decode (flatName struct.name) text =
        outline.map (SkeletonLine.translate 3 pythonElement) ∧
      matlabSkeleton .encode encodeText =
        outline.map (SkeletonLine.translate 2 matlabElementName) ∧
      matlabSkeleton .decode decodeText =
        outline.map (SkeletonLine.translate 2 matlabElementName) := by
  obtain ⟨outline, outlined, follows⟩ :=
    pythonSkeleton_of_pythonModule read python classNames listed
  obtain ⟨plans, after, planned, found⟩ := lookup_matlabFiles matlab stems
  have known := readPlan_of_plans read planned
  rw [← Schema.struct_of_plans planned] at listed
  obtain ⟨plan, member, rfl⟩ := List.mem_map.mp listed
  obtain ⟨own, ownWritten, lookups⟩ := found plan member
  obtain ⟨-, encodeText, decodeText, encodeWritten, decodeWritten, encodeFile, decodeFile⟩ :=
    structFiles_eq_ok ownWritten
  have unbroken : Unbroken (matlabElementName (.compound plan.struct.name)) := by
    refine .matlabElementName ?_
    rintro name same
    obtain rfl := FieldType.compound.inj same
    exact (known plan member).read.name
  obtain ⟨_, encodeOutlined, encodes⟩ :=
    matlabSkeleton_encodeMembersFile (known plan member) unbroken encodeWritten
  obtain ⟨_, decodeOutlined, decodes⟩ :=
    matlabSkeleton_decodeMembersFile (known plan member) unbroken decodeWritten
  obtain rfl := Except.ok.inj (outlined.symm.trans encodeOutlined)
  obtain rfl := Except.ok.inj (outlined.symm.trans decodeOutlined)
  exact ⟨outline, encodeText, decodeText, outlined, lookups _ encodeFile, lookups _ decodeFile,
    follows .encode, follows .decode, encodes, decodes⟩

/-- In a grid of points, the codecs transfer the number of columns, then each point below the loops
over two rows and over the columns, then the label. -/
theorem codecs_follow_outline_grid :
    ∃ schema text files encodeText decodeText,
      Schema.ofTexts ["struct grid \x7b int32_t n; point cells[2][n]; string label; \x7d",
          "struct point \x7b double x; \x7d"] = .ok schema ∧
      (pythonModule schema none []).1 = .ok text ∧
      (matlabFiles schema []).1 = .ok files ∧
      files.lookup "grid_encode_nohash.m" = some encodeText ∧
      files.lookup "grid_decode_nohash.m" = some decodeText ∧
      (∀ direction, pythonSkeleton direction "grid" text =
        [⟨3, .transfer (.packed "_INT32")⟩, ⟨3, .loop "0" (.numeral "2")⟩,
          ⟨4, .loop "1" (.length "n")⟩, ⟨5, .transfer (.instanceOf "point")⟩,
          ⟨3, .transfer .string⟩]) ∧
      matlabSkeleton .encode encodeText =
        [⟨2, .transfer "int32"⟩, ⟨2, .loop "0" (.numeral "2")⟩, ⟨3, .loop "1" (.length "n")⟩,
          ⟨4, .transfer "point"⟩, ⟨2, .transfer "string"⟩] ∧
      matlabSkeleton .decode decodeText =
        [⟨2, .transfer "int32"⟩, ⟨2, .loop "0" (.numeral "2")⟩, ⟨3, .loop "1" (.length "n")⟩,
          ⟨4, .transfer "point"⟩, ⟨2, .transfer "string"⟩] := by
  let grid : Struct := ⟨"grid", [⟨"n", .primitive .int32, []⟩,
    ⟨"cells", .compound "point", [.constant "2", .dynamic "n"]⟩,
    ⟨"label", .primitive .string, []⟩], 5839352403846263167⟩
  let schema : Schema := ⟨[grid, ⟨"point", [⟨"x", .primitive .double, []⟩], 460655643848370160⟩]⟩
  obtain ⟨text, python⟩ : ∃ text, (pythonModule schema none []).1 = .ok text :=
    Outcome.exists_of_isOk (by decide +kernel)
  obtain ⟨files, matlab⟩ : ∃ files, (matlabFiles schema []).1 = .ok files :=
    Outcome.exists_of_isOk (by decide +kernel)
  have read : Schema.ofTexts ["struct grid \x7b int32_t n; point cells[2][n]; string label; \x7d",
          "struct point \x7b double x; \x7d"] = .ok schema := by decide +kernel
  obtain ⟨outline, encodeText, decodeText, outlined, encodeFile, decodeFile, pythonEncodes,
    pythonDecodes, matlabEncodes, matlabDecodes⟩ := codecs_follow_outline read python matlab
      (by decide +kernel) (by decide +kernel) (List.mem_cons_self : grid ∈ schema.structs)
  have shape : grid.outline = .ok [⟨0, .transfer (.primitive .int32)⟩,
      ⟨0, .loop "0" (.numeral "2")⟩, ⟨1, .loop "1" (.length "n")⟩,
      ⟨2, .transfer (.compound "point")⟩, ⟨0, .transfer (.primitive .string)⟩] := by
    decide +kernel
  obtain rfl := Except.ok.inj (outlined.symm.trans shape)
  have className : flatName grid.name = "grid" := by decide +kernel
  have encodeName : matlabName grid.name ++ "_encode_nohash.m" = "grid_encode_nohash.m" := by
    decide +kernel
  have decodeName : matlabName grid.name ++ "_decode_nohash.m" = "grid_decode_nohash.m" := by
    decide +kernel
  rw [className] at pythonEncodes pythonDecodes
  rw [encodeName] at encodeFile
  rw [decodeName] at decodeFile
  refine ⟨schema, text, files, encodeText, decodeText, read, python, matlab, encodeFile,
    decodeFile, ?_, matlabEncodes.trans (by decide +kernel),
    matlabDecodes.trans (by decide +kernel)⟩
  intro direction
  cases direction with
  | encode => exact pythonEncodes.trans (by decide +kernel)
  | decode => exact pythonDecodes.trans (by decide +kernel)

end Wireform.Backend
