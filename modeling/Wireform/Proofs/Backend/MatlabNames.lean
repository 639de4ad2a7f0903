import Mathlib.Data.List.Nodup
import Wireform.Proofs.Backend.MatlabSkeleton

/-! # Names of generated MATLAB files

The files of a schema are collected by name, and a file replaces an earlier one of the same name.
The names of the nine files of a struct are its stem and one of nine endings, none of which ends
with another (`Wireform.Backend.fileEnding_unique`), so a name tells the stem and the ending apart,
and structs with different stems have no file in common. Each file of each struct is therefore found
by its name (`Wireform.Backend.lookup_matlabFiles`).
-/

namespace Wireform.Backend

/-! ### Endings -/

/-- The endings of the names of a struct's files. -/
def fileEndings : List String :=
  ["_new.m", "_encode.m", "_decode.m", "_encodedSize.m", "_hash.m", "_encode_nohash.m",
    "_decode_nohash.m", "_encodedSize_nohash.m", "_computeHash.m"]

/-- No ending ends with another. -/
theorem fileEnding_unique : ∀ first ∈ fileEndings, ∀ second ∈ fileEndings,
    first.toList <:+ second.toList → first = second := by
  decide +kernel

/-- The name of a file tells the stem and the ending apart. -/
theorem stem_and_ending_unique {first second stem other : String} (left : first ∈ fileEndings)
    (right : second ∈ fileEndings) (same : stem ++ first = other ++ second) :
    stem = other ∧ first = second := by
  have whole := congrArg String.toList same
  rw [String.toList_append, String.toList_append] at whole
  have firstEnds : first.toList <:+ other.toList ++ second.toList := whole ▸ List.suffix_append _ _
  have secondEnds : second.toList <:+ other.toList ++ second.toList := List.suffix_append _ _
  have equal : first = second := by
    rcases List.suffix_or_suffix_of_suffix firstEnds secondEnds with shorter | longer
    · exact fileEnding_unique first left second right shorter
    · exact (fileEnding_unique second right first left longer).symm
  subst equal
  exact ⟨String.toList_inj.mp (List.append_cancel_right whole), rfl⟩

/-! ### Files of structs -/

/-- The files of a struct are named by its stem and the endings, and hold the files for the
members. -/
theorem structFiles_eq_ok {plan : TypePlan} {files : List (String × String)}
    (written : structFiles plan = .ok files) :
    files.map Prod.fst = fileEndings.map (matlabName plan.struct.name ++ ·) ∧
    ∃ encode decode,
      encodeMembersFile (matlabName plan.struct.name) plan = .ok encode ∧
      decodeMembersFile (matlabName plan.struct.name) plan = .ok decode ∧
      (matlabName plan.struct.name ++ "_encode_nohash.m", encode) ∈ files ∧
      (matlabName plan.struct.name ++ "_decode_nohash.m", decode) ∈ files := by
  obtain ⟨encode, decode, size, encodeWritten, decodeWritten, -, rfl⟩ := structFiles_parts written
  exact ⟨rfl, encode, decode, encodeWritten, decodeWritten, by simp, by simp⟩

private theorem ending_of_mem_structFiles {plan : TypePlan} {files : List (String × String)}
    (written : structFiles plan = .ok files) {file : String × String} (member : file ∈ files) :
    ∃ ending ∈ fileEndings, file.1 = matlabName plan.struct.name ++ ending := by
  have name := List.mem_map_of_mem (f := Prod.fst) member
  rw [(structFiles_eq_ok written).1, List.mem_map] at name
  obtain ⟨ending, listed, same⟩ := name
  exact ⟨ending, listed, same.symm⟩

/-- A struct has no two files of one name. -/
theorem nodup_structFiles {plan : TypePlan} {files : List (String × String)}
    (written : structFiles plan = .ok files) : (files.map Prod.fst).Nodup := by
  rw [(structFiles_eq_ok written).1]
  refine List.Nodup.map_on ?_ (by decide)
  intro first left second right same
  exact (stem_and_ending_unique left right same).2

/-- The files of a schema have names of their own, each the stem of a struct with an ending. -/
theorem names_matlabFiles {schema : Schema} {cache : FingerprintCache}
    {files : List (String × String)} (written : (matlabFiles schema cache).1 = .ok files) :
    (files.map Prod.fst).Nodup ∧ ∀ file ∈ files, ∃ struct ∈ schema.structs,
      ∃ ending ∈ fileEndings, file.1 = matlabName struct.name ++ ending := by
  obtain ⟨plans, after, parts, planned, made, rfl⟩ := matlabFiles_eq_ok written
  have none : ([] : List (String × String)).map Prod.fst |>.Nodup := List.nodup_nil
  refine ⟨Pairs.nodup_keys_setAll none _, fun file member => ?_⟩
  have collected := (Pairs.mem_of_mem_setAll member).resolve_left List.not_mem_nil
  obtain ⟨part, present, inside⟩ := List.mem_flatten.mp collected
  obtain ⟨plan, listed, own⟩ := Outcome.exists_of_mem_mapM made present
  obtain ⟨ending, known, named⟩ := ending_of_mem_structFiles own inside
  refine ⟨plan.struct, ?_, ending, known, named⟩
  rw [← Schema.struct_of_plans planned]
  exact List.mem_map_of_mem listed

/-- **Every file of every struct is found by its name.** -/
theorem lookup_matlabFiles {schema : Schema} {cache : FingerprintCache}
    {files : List (String × String)} (written : (matlabFiles schema cache).1 = .ok files)
    (distinct : (schema.names.map matlabName).Nodup) :
    ∃ plans after, schema.plans cache = (.ok plans, after) ∧
      ∀ plan ∈ plans, ∃ own, structFiles plan = .ok own ∧
        ∀ file ∈ own, files.lookup file.1 = some file.2 := by
  obtain ⟨plans, after, parts, planned, made, rfl⟩ := matlabFiles_eq_ok written
  refine ⟨plans, after, planned, ?_⟩
  intro plan listed
  obtain ⟨own, part, ownWritten⟩ := Outcome.mem_of_mapM made listed
  refine ⟨own, ownWritten, ?_⟩
  intro file member
  refine Pairs.lookup_setAll (.inr (List.mem_flatten.mpr ⟨own, part, member⟩)) ?_
  intro other present same
  obtain ⟨foreign, foreignPart, inside⟩ := List.mem_flatten.mp present
  obtain ⟨owner, ownerListed, foreignWritten⟩ := Outcome.exists_of_mem_mapM made foreignPart
  -- a file of the same name comes from the same struct, and a struct has it once
  obtain ⟨ending, left, named⟩ := ending_of_mem_structFiles ownWritten member
  obtain ⟨otherEnding, right, otherNamed⟩ := ending_of_mem_structFiles foreignWritten inside
  have stems := (stem_and_ending_unique right left (otherNamed.symm.trans (same.trans named))).1
  rw [Schema.map_names_of_plans planned] at distinct
  obtain rfl := List.inj_on_of_nodup_map distinct ownerListed listed stems
  obtain rfl := Except.ok.inj (ownWritten.symm.trans foreignWritten)
  have once := nodup_structFiles ownWritten
  exact congrArg Prod.snd (List.inj_on_of_nodup_map once inside member same)

end Wireform.Backend
