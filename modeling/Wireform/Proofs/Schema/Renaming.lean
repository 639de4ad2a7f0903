import Mathlib.Logic.Equiv.Basic
import Wireform.Proofs.Schema.Validity

/-! # Renaming the types of a schema

The names of structs decide what a lookup finds and what a walk leaves out, but not what it adds:
they are not part of a signature. A renaming that keeps names apart, and apart from the names of
primitives, leaves a sound schema sound and all its structural hashes as they are
(`Wireform.Schema.structuralHash_rename`).
-/

namespace Wireform

/-- The type under its new name. The names of primitives stay. -/
def FieldType.rename (rename : String → String) : FieldType → FieldType
  | .primitive p => .primitive p
  | .compound name => .ofName (rename name)

def Member.rename (rename : String → String) (member : Member) : Member :=
  { member with type := member.type.rename rename }

/-- The struct under its new name, with the base hash of what it then holds. -/
def Struct.rename (rename : String → String) (struct : Struct) : Struct :=
  Struct.withSignatureHash
    { name := rename struct.name, members := struct.members.map (Member.rename rename) }

def Schema.rename (schema : Schema) (rename : String → String) : Schema :=
  ⟨schema.structs.map (Struct.rename rename)⟩

private theorem FieldType.ofName_of_none {name : String}
    (compound : Primitive.ofName? name = none) :
    ofName name = .compound name := by
  rw [ofName, compound]

private theorem Schema.names_rename (schema : Schema) (rename : String → String) :
    (schema.rename rename).names = schema.names.map rename := by
  rw [names, names, Schema.rename, List.map_map, List.map_map]
  rfl

/-! ### Sound structs under new names -/

section Sound

variable {rename : String → String} {known : List String}
  (compound : ∀ name ∈ known, Primitive.ofName? (rename name) = none)
include compound

private theorem Member.Sound.type_rename {declared : List Member} {member : Member}
    (sound : member.Sound known declared) {type : String} (named : member.type = .compound type) :
    (member.rename rename).type = .compound (rename type) := by
  rw [Member.rename, named]
  exact FieldType.ofName_of_none (compound type (sound.type type named))

private theorem Member.Sound.signature_rename {declared : List Member} {member : Member}
    (sound : member.Sound known declared) :
    (member.rename rename).signature = member.signature := by
  have same : (member.rename rename).type.signature = member.type.signature := by
    cases named : member.type with
    | primitive p => rw [Member.rename, named]; rfl
    | compound type => rw [sound.type_rename compound named]; rfl
  rw [Member.signature, same]
  rfl

/-- The hash of a signature does not see the names of structs. -/
theorem Struct.Sound.signatureHash_rename {struct : Struct} (sound : struct.Sound known) :
    (struct.rename rename).signatureHash = struct.signatureHash := by
  have same : (struct.rename rename).signature = struct.signature := by
    rw [signature, signature]
    change (struct.members.map (Member.rename rename)).flatMap Member.signature = _
    rw [List.flatMap_map]
    apply List.flatMap_congr
    intro member listed
    obtain ⟨declared, soundMember⟩ := sound.exists_of_mem listed
    exact soundMember.signature_rename compound
  rw [signatureHash, same]
  rfl

private theorem Struct.Sound.dependencies_rename {struct : Struct} (sound : struct.Sound known) :
    (struct.rename rename).dependencies = struct.dependencies.map rename := by
  rw [dependencies, dependencies, List.map_filterMap]
  change (struct.members.map (Member.rename rename)).filterMap _ = _
  rw [List.filterMap_map]
  apply List.filterMap_congr
  intro member listed
  obtain ⟨declared, soundMember⟩ := sound.exists_of_mem listed
  cases named : member.type with
  | primitive p => simp [Member.rename, FieldType.rename, named]
  | compound type => simp [soundMember.type_rename compound named]

private theorem Member.Sound.sound_rename {declared : List Member} {member : Member}
    (sound : member.Sound known declared) :
    (member.rename rename).Sound (known.map rename) (declared.map (Member.rename rename)) := by
  refine ⟨?_, ?_, ?_⟩
  · intro earlier listed
    obtain ⟨owner, present, rfl⟩ := List.mem_map.mp listed
    exact sound.fresh owner present
  · intro type named
    cases before : member.type with
    | primitive p =>
        rw [Member.rename, before] at named
        cases named
    | compound name =>
        rw [sound.type_rename compound before] at named
        obtain rfl := FieldType.compound.inj named
        exact List.mem_map_of_mem (sound.type name before)
  · intro dimension listed
    rcases sound.dimensions dimension listed with constant | ⟨length, present, carries⟩
    · exact .inl constant
    · obtain ⟨named, single, integer⟩ := carries
      refine .inr ⟨length.rename rename, List.mem_map_of_mem present, named, single, ?_⟩
      -- a carrier has a primitive type, and keeps it
      cases type : length.type with
      | primitive p =>
          rw [type] at integer
          rw [Member.rename, type]
          exact integer
      | compound name =>
          rw [type] at integer
          cases integer

private theorem Struct.Sound.sound_rename {struct : Struct} (sound : struct.Sound known) :
    (struct.rename rename).Sound (known.map rename) := by
  intro before member after shape
  obtain ⟨left, right, members, rfl, tail⟩ := List.map_eq_append_iff.mp shape
  obtain ⟨owner, others, rfl, rfl, -⟩ := List.map_eq_cons_iff.mp tail
  exact (sound left owner others members).sound_rename compound

end Sound

namespace Schema

variable {schema : Schema} {rename : String → String}

private theorem lookup?_rename (injective : Function.Injective rename) (name : String) :
    (schema.rename rename).lookup? (rename name) =
      (schema.lookup? name).map (Struct.rename rename) := by
  rw [lookup?, lookup?, Schema.rename, List.find?_map]
  congr 2
  funext struct
  change (rename struct.name == rename name) = (struct.name == name)
  rw [Bool.eq_iff_iff, beq_iff_eq, beq_iff_eq]
  exact injective.eq_iff

/-- A sound schema is found again under its new names. -/
theorem embedding_rename (sound : ∀ struct ∈ schema.structs, struct.Sound schema.names)
    (hashed : ∀ struct ∈ schema.structs, struct.baseHash = struct.signatureHash.toNat)
    (injective : Function.Injective rename)
    (compound : ∀ name ∈ schema.names, Primitive.ofName? (rename name) = none) :
    Embedding rename (Struct.rename rename) schema (schema.rename rename) where
  injective := injective
  name := fun _ _ => rfl
  baseHash := by
    intro struct listed
    have same := (sound struct listed).signatureHash_rename compound
    rw [hashed struct listed, ← same]
    rfl
  dependencies := fun struct listed => (sound struct listed).dependencies_rename compound
  lookup? := by
    intro name struct found
    rw [lookup?_rename injective, found]
    rfl

/-- **Fingerprints do not see the names of types.** Let the structs of a valid schema have names
apart from the primitives and the base hashes of their signatures. Under new names that are as much
apart, the schema is valid, and each struct has the hash that it had, along all cycles. -/
theorem structuralHash_rename (valid : schema.validate = .ok ())
    (apart : ∀ struct ∈ schema.structs, Primitive.ofName? struct.name = none)
    (hashed : ∀ struct ∈ schema.structs, struct.baseHash = struct.signatureHash.toNat)
    (injective : Function.Injective rename)
    (keepsApart : ∀ name, Primitive.ofName? name = none → Primitive.ofName? (rename name) = none) :
    (schema.rename rename).validate = .ok () ∧
      ∀ struct ∈ schema.structs, ∃ word,
        schema.structuralHash struct [] = .ok word ∧
        (schema.rename rename).structuralHash (struct.rename rename) [] = .ok word := by
  obtain ⟨distinct, sound⟩ := validate_eq_ok_iff.mp valid
  have compound : ∀ name ∈ schema.names, Primitive.ofName? (rename name) = none := by
    intro name listed
    obtain ⟨struct, present, rfl⟩ := List.mem_map.mp listed
    exact keepsApart struct.name (apart struct present)
  constructor
  · rw [validate_eq_ok_iff, names_rename]
    refine ⟨distinct.map injective, ?_⟩
    intro struct listed
    obtain ⟨owner, present, rfl⟩ := List.mem_map.mp listed
    exact (sound owner present).sound_rename compound
  · intro struct listed
    obtain ⟨word, walked⟩ := exists_structuralHash (closed_of_validate valid) listed (pathOf [])
    have embedding := embedding_rename sound hashed injective compound
    exact ⟨word, walked, structuralHash_of_embedding embedding listed walked⟩

/-- A tree and its branches name each other. Branches become limbs, under a shorter name. -/
theorem structuralHash_rename_tree :
    let schema : Schema := ⟨[
      Struct.withSignatureHash ⟨"tree", [⟨"trunk", .compound "branch", []⟩], 0⟩,
      Struct.withSignatureHash ⟨"branch", [⟨"count", .primitive .int32, []⟩,
        ⟨"origin", .compound "tree", [.dynamic "count"]⟩], 0⟩]⟩
    let rename := Equiv.swap "branch" "limb"
    schema.validate = .ok () ∧ (schema.rename rename).names = ["tree", "limb"] ∧
      (schema.rename rename).validate = .ok () ∧
      ∀ struct ∈ schema.structs, ∃ word,
        schema.structuralHash struct [] = .ok word ∧
        (schema.rename rename).structuralHash (struct.rename rename) [] = .ok word := by
  intro schema rename
  have valid : schema.validate = .ok () := by decide +kernel
  have keepsApart : ∀ name, Primitive.ofName? name = none →
      Primitive.ofName? (rename name) = none := by
    intro name compound
    rw [Equiv.swap_apply_def]
    split_ifs
    · decide +kernel
    · decide +kernel
    · exact compound
  exact ⟨valid, by decide +kernel, structuralHash_rename valid (by decide +kernel)
    (by decide +kernel) rename.injective keepsApart⟩

end Schema

end Wireform
