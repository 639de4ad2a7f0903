import Mathlib.Data.List.Dedup
import Mathlib.Data.Set.Function
import Wireform.Proofs.Backend.MatlabNames
import Wireform.Proofs.Schema.Validity

/-! # Stems of MATLAB files

The stem of a type is its name with underscores for the dots, or the storage class of a primitive.
Nothing keeps two types from having the same stem: `a.b_c` and `a_b.c` both have the stem `a_b_c`,
and a struct `int32` has that of `int32_t`. A schema with such names is accepted, and files are
written for it.

What is lost is settled by the stems (`Wireform.Backend.apart_iff_stems`). There are nine files for
each stem (`Wireform.Backend.length_matlabFiles`), and the function that computes the fingerprint
spells out the name of its struct (`Wireform.Backend.computeHashFile_inj`). So there are nine files
for each struct, and each struct has its own, exactly when no two structs share a stem. A file has
the name of a codec for a primitive exactly when a struct has the stem of a primitive.
-/

namespace Wireform.Backend

/-! ### Counting files -/

section Files

variable {schema : Schema} {cache : FingerprintCache} {files : List (String × String)}

/-- The files of a schema are named by the stems of its structs with each of the endings. -/
theorem mem_names_matlabFiles (written : (matlabFiles schema cache).1 = .ok files) {name : String} :
    name ∈ files.map Prod.fst ↔
      ∃ stem ∈ schema.names.map matlabName, ∃ ending ∈ fileEndings, name = stem ++ ending := by
  constructor
  · intro member
    obtain ⟨file, present, rfl⟩ := List.mem_map.mp member
    obtain ⟨struct, listed, ending, known, named⟩ := (names_matlabFiles written).2 file present
    exact ⟨_, List.mem_map_of_mem (List.mem_map_of_mem listed), ending, known, named⟩
  · rintro ⟨stem, listed, ending, known, rfl⟩
    obtain ⟨plans, after, parts, planned, made, rfl⟩ := matlabFiles_eq_ok written
    rw [Schema.map_names_of_plans planned] at listed
    obtain ⟨plan, present, rfl⟩ := List.mem_map.mp listed
    obtain ⟨own, part, ownWritten⟩ := Outcome.mem_of_mapM made present
    have named : matlabName plan.struct.name ++ ending ∈ own.map Prod.fst := by
      rw [(structFiles_eq_ok ownWritten).1]
      exact List.mem_map_of_mem known
    obtain ⟨file, inside, same⟩ := List.mem_map.mp named
    refine Pairs.mem_keys_setAll.mpr (.inr ?_)
    exact List.mem_map.mpr ⟨file, List.mem_flatten.mpr ⟨own, part, inside⟩, same⟩

/-- **There are nine files for each stem.** -/
theorem length_matlabFiles (written : (matlabFiles schema cache).1 = .ok files) :
    files.length = 9 * (schema.names.map matlabName).dedup.length := by
  let expected := (schema.names.map matlabName).dedup.flatMap fun stem =>
    fileEndings.map (stem ++ ·)
  have distinct : expected.Nodup := by
    refine List.nodup_flatMap.mpr ⟨fun stem _ => ?_, ?_⟩
    · refine List.Nodup.map_on (fun first left second right same => ?_) (by decide)
      exact (stem_and_ending_unique left right same).2
    · refine (List.nodup_dedup _).imp fun {first second} apart => ?_
      intro name left right
      obtain ⟨ending, known, rfl⟩ := List.mem_map.mp left
      obtain ⟨other, otherKnown, same⟩ := List.mem_map.mp right
      exact apart (stem_and_ending_unique known otherKnown same.symm).1
  have same : (files.map Prod.fst).Perm expected := by
    refine (List.perm_ext_iff_of_nodup (names_matlabFiles written).1 distinct).mpr fun name => ?_
    rw [mem_names_matlabFiles written]
    simp only [expected, List.mem_flatMap, List.mem_dedup, List.mem_map, eq_comm]
  have nine : fileEndings.length = 9 := rfl
  calc files.length = expected.length := by rw [← same.length_eq, List.length_map]
    _ = 9 * (schema.names.map matlabName).dedup.length := by
      simp [expected, List.length_flatMap, nine, Nat.mul_comm]

private theorem length_matlabFiles_iff (written : (matlabFiles schema cache).1 = .ok files) :
    files.length = 9 * schema.structs.length ↔ (schema.names.map matlabName).Nodup := by
  have count : (schema.names.map matlabName).length = schema.structs.length := by
    simp [Schema.names]
  rw [length_matlabFiles written, ← List.dedup_eq_self, ← count]
  constructor
  · intro same
    exact (List.dedup_sublist _).eq_of_length (by omega)
  · intro same
    rw [same]

end Files

/-! ### The struct of a file -/

private theorem append_cons_inj {c : Char} {first second left right : List Char} (apart : c ∉ first)
    (otherApart : c ∉ second) (same : first ++ c :: left = second ++ c :: right) :
    first = second ∧ left = right := by
  have cut {part tail : List Char} (outside : c ∉ part) :
      (part ++ c :: tail).takeWhile (· != c) = part := by
    have each : ∀ d ∈ part, (d != c) = true := fun d member =>
      bne_iff_ne.mpr fun equal => outside (equal ▸ member)
    rw [List.takeWhile_append_of_pos each]
    simp
  have parts := congrArg (List.takeWhile (· != c)) same
  rw [cut apart, cut otherApart] at parts
  subst parts
  simpa using same

/-- The line in which a struct joins the path of the fingerprint. -/
def pathLine (name : String) : String :=
  "parents = [parents, " ++ toString name.length ++ ", '" ++ name ++ "'];"

private theorem pathLine_injective : Function.Injective pathLine := by
  have spelt (name : String) : (pathLine name).toList = "parents = [parents, ".toList ++
      ((toString name.length).toList ++ ',' :: (" '".toList ++ (name.toList ++ "'];".toList))) := by
    have comma : ", '".toList = ',' :: " '".toList := rfl
    unfold pathLine
    simp only [String.toList_append, List.append_assoc, comma, List.cons_append]
  have digits (name : String) : ',' ∉ (toString name.length).toList := fun member =>
    absurd (isDigit_of_mem_toString member) (by decide)
  intro first second same
  have texts := congrArg String.toList same
  rw [spelt, spelt] at texts
  obtain ⟨-, rest⟩ :=
    append_cons_inj (digits first) (digits second) (List.append_cancel_left texts)
  exact String.toList_inj.mp (List.append_cancel_right (List.append_cancel_left rest))

private theorem layOut_cons_cons (first second : Line) (rest : List Line) :
    layOut (first :: second :: rest) = first.render ++ "\n" ++ layOut (second :: rest) := by
  simp only [layOut, List.map_cons, String.intercalate_cons_cons, String.append_assoc]

/-- A file begins with comments, the line of its function, and the first line of the body. -/
theorem functionText_deeper_cons (signature : String) {first : String} (filled : first ≠ "")
    (body : List Line) :
    ∃ rest, (functionText signature (deeper (plain first :: body))).toList =
      (fileHeader ++ "function " ++ signature ++ "\n    ").toList ++
        (first.toList ++ '\n' :: rest) := by
  have indented : (plain first).deeper.render = "    " ++ first := by
    simp [Line.render, Line.deeper, plain, filled, Line.indent, String.join]
  have header : (plain ("function " ++ signature)).render = "function " ++ signature := by
    simp [Line.render, plain, String.join]
  obtain ⟨second, lines, shape⟩ : ∃ second lines,
      deeper body ++ [plain "%endfunction", Line.blank] = second :: lines :=
    List.exists_cons_of_ne_nil (by simp)
  refine ⟨(layOut (second :: lines)).toList, ?_⟩
  rw [functionText, deeper_cons, List.cons_append, shape, layOut_cons_cons, layOut_cons_cons,
    indented, header]
  simp [String.toList_append, List.append_assoc]

/-- The function that computes the fingerprint begins with the name of its struct. -/
theorem computeHashFile_eq (stem : String) (plan : TypePlan) :
    ∃ rest, (computeHashFile stem plan).toList =
      (fileHeader ++ "function " ++ ("hash = " ++ stem ++ "_computeHash(parents)") ++
        "\n    ").toList ++ ((pathLine plan.struct.name).toList ++ '\n' :: rest) := by
  have filled : pathLine plan.struct.name ≠ "" := by
    unfold pathLine
    simp
  exact functionText_deeper_cons _ filled _

private theorem computeHashFile_inj {stem : String} {plan other : TypePlan}
    (dotted : Source.Dotted plan.struct.name) (otherDotted : Source.Dotted other.struct.name)
    (same : computeHashFile stem plan = computeHashFile stem other) :
    plan.struct.name = other.struct.name := by
  have unbroken {name : String} (dotted : Source.Dotted name) : Unbroken (pathLine name) :=
    (Unbroken.ofList rfl).append (.toString _) |>.append (.ofList rfl) |>.append (.ofDotted dotted)
      |>.append (.ofList rfl)
  obtain ⟨rest, spelt⟩ := computeHashFile_eq stem plan
  obtain ⟨otherRest, otherSpelt⟩ := computeHashFile_eq stem other
  rw [same, otherSpelt] at spelt
  obtain ⟨lines, -⟩ := append_cons_inj (unbroken otherDotted) (unbroken dotted)
    (List.append_cancel_left spelt)
  exact (pathLine_injective (String.toList_inj.mp lines)).symm

private theorem computeHashFile_mem {plan : TypePlan} {own : List (String × String)}
    (written : structFiles plan = .ok own) :
    (matlabName plan.struct.name ++ "_computeHash.m",
      computeHashFile (matlabName plan.struct.name) plan) ∈ own := by
  obtain ⟨encode, decode, size, -, -, -, rfl⟩ := structFiles_parts written
  simp

/-! ### What shared stems lose -/

section Shared

variable {schema : Schema} {cache : FingerprintCache} {files : List (String × String)}

/-- Each struct has nine files of its own among the files of a schema. -/
def KeepsFiles (schema : Schema) (cache : FingerprintCache) (files : List (String × String)) :
    Prop :=
  ∃ plans after, schema.plans cache = (.ok plans, after) ∧
    ∀ plan ∈ plans, ∃ own, structFiles plan = .ok own ∧ own.length = 9 ∧
      ∀ file ∈ own, files.lookup file.1 = some file.2

private theorem keepsFiles_iff (distinct : schema.names.Nodup)
    (dotted : ∀ name ∈ schema.names, Source.Dotted name)
    (written : (matlabFiles schema cache).1 = .ok files) :
    KeepsFiles schema cache files ↔ (schema.names.map matlabName).Nodup := by
  constructor
  · rintro ⟨plans, after, planned, kept⟩
    have names : schema.names = plans.map (·.struct.name) := by
      simpa using Schema.map_names_of_plans planned id
    refine distinct.map_on fun first left second right same => ?_
    have members := names ▸ And.intro left right
    obtain ⟨plan, listed, rfl⟩ := List.mem_map.mp members.1
    obtain ⟨other, otherListed, rfl⟩ := List.mem_map.mp members.2
    obtain ⟨own, ownWritten, -, found⟩ := kept plan listed
    obtain ⟨otherOwn, otherWritten, -, otherFound⟩ := kept other otherListed
    -- the function for the fingerprint is found under one name, and tells which struct it is for
    have here := found _ (computeHashFile_mem ownWritten)
    have there := otherFound _ (computeHashFile_mem otherWritten)
    simp only [same] at here there
    exact computeHashFile_inj (dotted _ left) (dotted _ right)
      (Option.some.inj (here.symm.trans there))
  · intro apart
    obtain ⟨plans, after, planned, kept⟩ := lookup_matlabFiles written apart
    refine ⟨plans, after, planned, fun plan listed => ?_⟩
    obtain ⟨own, ownWritten, found⟩ := kept plan listed
    have count := congrArg List.length (structFiles_eq_ok ownWritten).1
    rw [List.length_map, List.length_map] at count
    exact ⟨own, ownWritten, count, found⟩

/-- The endings of the functions that write, read and measure values without a fingerprint. -/
def codecEndings : List String :=
  ["_encode_nohash.m", "_decode_nohash.m", "_encodedSize_nohash.m"]

/-- The files of the codecs that generated code calls for the primitives. -/
def primitiveCodecs : List String :=
  Primitive.all.flatMap fun p => codecEndings.map (matlabName p.name ++ ·)

private theorem not_mem_primitiveCodecs_iff (written : (matlabFiles schema cache).1 = .ok files) :
    (∀ file ∈ files, file.1 ∉ primitiveCodecs) ↔
      ∀ name ∈ schema.names, ∀ p : Primitive, matlabName name ≠ matlabName p.name := by
  have known : codecEndings ⊆ fileEndings := by decide
  constructor
  · intro apart name listed p same
    have named : matlabName name ++ "_encode_nohash.m" ∈ files.map Prod.fst :=
      (mem_names_matlabFiles written).mpr
        ⟨_, List.mem_map_of_mem listed, _, by decide, rfl⟩
    obtain ⟨file, present, spelt⟩ := List.mem_map.mp named
    refine apart file present (List.mem_flatMap.mpr ⟨p, p.mem_all, ?_⟩)
    rw [spelt, same]
    exact List.mem_map_of_mem (by decide)
  · intro apart file present found
    obtain ⟨p, -, codec⟩ := List.mem_flatMap.mp found
    obtain ⟨ending, listed, same⟩ := List.mem_map.mp codec
    obtain ⟨stem, stems, other, otherKnown, named⟩ :=
      (mem_names_matlabFiles written).mp (List.mem_map_of_mem present)
    obtain ⟨name, here, rfl⟩ := List.mem_map.mp stems
    exact apart name here p
      (stem_and_ending_unique (known listed) otherKnown (same.trans named)).1.symm

/-- The names of types that generated code for a schema knows. -/
def typeNames (schema : Schema) : Set String :=
  { name | name ∈ schema.names ∨ ∃ p : Primitive, name = p.name }

private theorem matlabName_name (p : Primitive) : matlabName p.name = storageClass p := by
  simp [matlabName]

private theorem storageClass_injective : Function.Injective storageClass := by
  intro first second same
  have distinct : (Primitive.all.map storageClass).Nodup := by decide
  exact List.inj_on_of_nodup_map distinct first.mem_all second.mem_all same

private theorem injOn_matlabName_iff (distinct : schema.names.Nodup) :
    Set.InjOn matlabName (typeNames schema) ↔
      (schema.names.map matlabName).Nodup ∧
        ∀ name ∈ schema.names, ∀ p : Primitive, matlabName name = matlabName p.name →
          name = p.name := by
  constructor
  · intro injective
    exact ⟨distinct.map_on fun first left second right same =>
        injective (.inl left) (.inl right) same,
      fun name listed p same => injective (.inl listed) (.inr ⟨p, rfl⟩) same⟩
  · rintro ⟨apart, own⟩ first (left | ⟨p, rfl⟩) second (right | ⟨q, rfl⟩) same
    · exact List.inj_on_of_nodup_map apart left right same
    · exact own first left q same
    · exact (own second right p same.symm).symm
    · rw [matlabName_name, matlabName_name] at same
      rw [storageClass_injective same]

/-- Files for definitions are found by running the generator on them. -/
theorem exists_matlabFiles_of_texts {texts names : List String}
    (checked : ((Schema.ofTexts texts).map fun schema =>
      (schema.names, (matlabFiles schema []).1.isOk)) = .ok (names, true)) :
    ∃ schema files, Schema.ofTexts texts = .ok schema ∧ (matlabFiles schema []).1 = .ok files ∧
      schema.names = names := by
  cases read : Schema.ofTexts texts with
  | error fault =>
      rw [read] at checked
      cases checked
  | ok schema =>
      rw [read] at checked
      obtain ⟨named, succeeds⟩ := Prod.mk.inj (Except.ok.inj checked)
      obtain ⟨files, written⟩ := Outcome.exists_of_isOk succeeds
      exact ⟨schema, files, rfl, written, named⟩

/-- **The stems settle whether types have functions of their own.** No two structs have the same
stem exactly when there are nine files for each struct, and exactly when each struct keeps its own.
No struct has the stem of a primitive exactly when no file has the name of a codec for one. -/
theorem apart_iff_stems {texts : List String} (read : Schema.ofTexts texts = .ok schema)
    (written : (matlabFiles schema cache).1 = .ok files) :
    (Set.InjOn matlabName (typeNames schema) ↔
      (schema.names.map matlabName).Nodup ∧
        ∀ name ∈ schema.names, ∀ p : Primitive, matlabName name = matlabName p.name →
          name = p.name) ∧
      (files.length = 9 * schema.structs.length ↔ (schema.names.map matlabName).Nodup) ∧
      (KeepsFiles schema cache files ↔ (schema.names.map matlabName).Nodup) ∧
      ((∀ file ∈ files, file.1 ∉ primitiveCodecs) ↔
        ∀ name ∈ schema.names, ∀ p : Primitive, matlabName name ≠ matlabName p.name) := by
  obtain ⟨-, valid⟩ := Schema.ofTexts_eq_ok_iff.mp read
  obtain ⟨distinct, -⟩ := Schema.validate_eq_ok_iff.mp valid
  have dotted : ∀ name ∈ schema.names, Source.Dotted name := by
    intro name listed
    obtain ⟨struct, present, rfl⟩ := List.mem_map.mp listed
    exact (Schema.readFrom_of_ofTexts read struct present).name
  exact ⟨injOn_matlabName_iff distinct, length_matlabFiles_iff written,
    keepsFiles_iff distinct dotted written, not_mem_primitiveCodecs_iff written⟩

/-- Two structs of one short name in different packages have eighteen files of their own. -/
theorem apart_iff_stems_pair :
    ∃ schema files,
      Schema.ofTexts ["package a; struct point_t \x7b int32_t x; \x7d",
        "package b; struct point_t \x7b a.point_t first; \x7d"] = .ok schema ∧
      (matlabFiles schema []).1 = .ok files ∧ Set.InjOn matlabName (typeNames schema) ∧
      files.length = 18 ∧ KeepsFiles schema [] files ∧
      ∀ file ∈ files, file.1 ∉ primitiveCodecs := by
  obtain ⟨schema, files, read, written, names⟩ := exists_matlabFiles_of_texts
    (by decide +kernel : ((Schema.ofTexts ["package a; struct point_t \x7b int32_t x; \x7d",
      "package b; struct point_t \x7b a.point_t first; \x7d"]).map fun schema =>
        (schema.names, (matlabFiles schema []).1.isOk)) = .ok (["a.point_t", "b.point_t"], true))
  obtain ⟨injective, count, kept, apart⟩ := apart_iff_stems read written
  rw [names] at injective count kept apart
  have two : schema.structs.length = 2 := by
    simpa [Schema.names] using congrArg List.length names
  have distinct : (["a.point_t", "b.point_t"].map matlabName).Nodup := by decide +kernel
  have clear : ∀ name ∈ ["a.point_t", "b.point_t"], ∀ p : Primitive,
      matlabName name ≠ matlabName p.name := by
    intro name listed p
    have table : ∀ name ∈ ["a.point_t", "b.point_t"], ∀ p ∈ Primitive.all,
        matlabName name ≠ matlabName p.name := by decide +kernel
    exact table name listed p p.mem_all
  refine ⟨schema, files, read, written, injective.mpr ⟨distinct, fun name listed p same => ?_⟩,
    ?_, kept.mpr distinct, apart.mpr clear⟩
  · exact absurd same (clear name listed p)
  · rw [count.mpr distinct, two]

/-- Two structs share nine files if they share a stem, and a struct may have the stem of a
primitive. -/
theorem files_of_shared_stems :
    (∃ schema files,
      Schema.ofTexts ["package a; struct b_c \x7b int32_t x; \x7d",
        "package a_b; struct c \x7b int32_t x; \x7d"] = .ok schema ∧
      (matlabFiles schema []).1 = .ok files ∧ schema.names = ["a.b_c", "a_b.c"] ∧
      ¬Set.InjOn matlabName (typeNames schema) ∧ files.length = 9) ∧
    ∃ schema files, Schema.ofTexts ["struct int32 \x7b int32_t x; \x7d"] = .ok schema ∧
      (matlabFiles schema []).1 = .ok files ∧
      ∃ file ∈ files, file.1 = "int32_encode_nohash.m" ∧ file.1 ∈ primitiveCodecs := by
  constructor
  · obtain ⟨schema, files, read, written, names⟩ := exists_matlabFiles_of_texts
      (by decide +kernel : ((Schema.ofTexts ["package a; struct b_c \x7b int32_t x; \x7d",
        "package a_b; struct c \x7b int32_t x; \x7d"]).map fun schema =>
          (schema.names, (matlabFiles schema []).1.isOk)) = .ok (["a.b_c", "a_b.c"], true))
    have first : "a.b_c" ∈ typeNames schema := .inl (by simp [names])
    have second : "a_b.c" ∈ typeNames schema := .inl (by simp [names])
    refine ⟨schema, files, read, written, names, fun injective => ?_, ?_⟩
    · exact absurd (injective first second (by decide +kernel)) (by decide)
    · rw [length_matlabFiles written, names]
      decide +kernel
  · obtain ⟨schema, files, read, written, names⟩ := exists_matlabFiles_of_texts
      (by decide +kernel : ((Schema.ofTexts ["struct int32 \x7b int32_t x; \x7d"]).map
        fun schema => (schema.names, (matlabFiles schema []).1.isOk)) = .ok (["int32"], true))
    have named : "int32_encode_nohash.m" ∈ files.map Prod.fst := by
      rw [mem_names_matlabFiles written, names]
      exact ⟨"int32", by decide +kernel, "_encode_nohash.m", by decide, rfl⟩
    obtain ⟨file, present, spelt⟩ := List.mem_map.mp named
    refine ⟨schema, files, read, written, file, present, spelt, ?_⟩
    rw [spelt]
    decide +kernel

end Shared

end Wireform.Backend
