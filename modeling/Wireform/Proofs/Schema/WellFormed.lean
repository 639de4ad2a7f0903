import Mathlib.Data.List.Pairwise
import Wireform.Proofs.Schema.Validity

/-! # Well-formed schemas

The rules that a schema has to follow, each said by itself and without the order of the checks
(`Wireform.Schema.WellFormed`): which names differ, which types are known, and which member carries
the length of a dimension. Validation carries along what it has met, and a struct is sound where
each of its members is, after the ones that stand before it (`Wireform.Struct.sound_iff_getElem`).
It reports a fault exactly for the schemas that break a rule
(`Wireform.Schema.validate_eq_error_iff`).
-/

namespace Wireform

/-- The types that may give the length of an array. -/
def Primitive.integers : List Primitive := [.int8, .int16, .uint16, .int32, .uint32, .int64]

private theorem FieldType.isInteger_iff {type : FieldType} :
    type.isInteger = true ↔ ∃ p ∈ Primitive.integers, type = .primitive p := by
  cases type with
  | primitive p => cases p <;> simp [isInteger, Primitive.isInteger, Primitive.integers]
  | compound name => simp [isInteger]

/-- A member that may carry the length of a dimension: a single value of an integer type. -/
structure Member.Carries (member : Member) (dimension : Dimension) : Prop where
  name : member.name = dimension.size
  single : member.dimensions = []
  integer : ∃ p ∈ Primitive.integers, member.type = .primitive p

/-- The rules of schemas. -/
structure Schema.WellFormed (schema : Schema) : Prop where
  structNames : schema.structs.Pairwise (·.name ≠ ·.name)
  memberNames : ∀ struct ∈ schema.structs, struct.members.Pairwise (·.name ≠ ·.name)
  types : ∀ struct ∈ schema.structs, ∀ member ∈ struct.members,
    member.type.isPrimitive = true ∨ ∃ defined ∈ schema.structs, defined.name = member.type.name
  lengths : ∀ struct ∈ schema.structs, ∀ place (inside : place < struct.members.length),
    ∀ dimension ∈ struct.members[place].dimensions, dimension.isConstant = false →
      ∃ earlier, ∃ before : earlier < place, struct.members[earlier].Carries dimension

/-- What holds of each entry of a list and the entries before it, by the places of the entries. -/
theorem forall_split_iff_getElem {α : Type} {holds : List α → α → Prop} {entries : List α} :
    (∀ before entry after, entries = before ++ entry :: after → holds before entry) ↔
      ∀ place (inside : place < entries.length), holds (entries.take place) entries[place] := by
  constructor
  · intro each place inside
    refine each _ _ (entries.drop (place + 1)) ?_
    rw [← List.drop_eq_getElem_cons inside, List.take_append_drop]
  · rintro each before entry after rfl
    have found := each before.length (by simp)
    simpa using found

private theorem Struct.sound_iff_getElem {known : List String} {struct : Struct} :
    struct.Sound known ↔ ∀ place (inside : place < struct.members.length),
      struct.members[place].Sound known (struct.members.take place) :=
  forall_split_iff_getElem

private theorem Dimension.carried_take_iff {members : List Member} {place : Nat}
    (inside : place < members.length) {dimension : Dimension} :
    dimension.Carried (members.take place) ↔
      ∃ earlier, ∃ before : earlier < place, members[earlier].Carries dimension := by
  constructor
  · rintro ⟨length, listed, named, single, integer⟩
    obtain ⟨earlier, before, rfl⟩ := List.mem_take_iff_getElem.mp listed
    refine ⟨earlier, by omega, named, ?_, FieldType.isInteger_iff.mp integer⟩
    simpa [Member.isArray] using single
  · rintro ⟨earlier, before, carries⟩
    refine ⟨members[earlier], List.mem_take_iff_getElem.mpr ⟨earlier, by omega, rfl⟩,
      carries.name, ?_, FieldType.isInteger_iff.mpr carries.integer⟩
    simp [Member.isArray, carries.single]

namespace Schema

variable {schema : Schema} {struct : Struct}

private theorem known_iff {type : FieldType} :
    (∀ name, type = .compound name → name ∈ schema.names) ↔
      type.isPrimitive = true ∨ ∃ defined ∈ schema.structs, defined.name = type.name := by
  cases type with
  | primitive p => simp [FieldType.isPrimitive]
  | compound name => simp [FieldType.isPrimitive, FieldType.name, names]

/-- **Well-formed schemas are the sound ones.** -/
theorem wellFormed_iff :
    schema.WellFormed ↔
      schema.names.Nodup ∧ ∀ struct ∈ schema.structs, struct.Sound schema.names := by
  constructor
  · intro rules
    refine ⟨List.pairwise_map.mpr rules.structNames, ?_⟩
    intro struct listed
    rw [Struct.sound_iff_getElem]
    intro place inside
    refine ⟨?_, ?_, ?_⟩
    · intro earlier before
      obtain ⟨index, below, rfl⟩ := List.mem_take_iff_getElem.mp before
      exact List.pairwise_iff_getElem.mp (rules.memberNames struct listed) index place _ inside
        (by omega)
    · exact known_iff.mpr (rules.types struct listed _ (List.getElem_mem inside))
    · intro dimension sized
      cases constant : dimension.isConstant with
      | true => exact .inl rfl
      | false =>
          right
          rw [Dimension.carried_take_iff inside]
          exact rules.lengths struct listed place inside dimension sized constant
  · rintro ⟨distinct, sound⟩
    have each {struct : Struct} (listed : struct ∈ schema.structs) :=
      Struct.sound_iff_getElem.mp (sound struct listed)
    refine ⟨List.pairwise_map.mp distinct, ?_, ?_, ?_⟩
    · intro struct listed
      rw [List.pairwise_iff_getElem]
      intro earlier place before inside below
      refine (each listed place inside).fresh _ ?_
      exact List.mem_take_iff_getElem.mpr ⟨earlier, by omega, rfl⟩
    · intro struct listed member present
      obtain ⟨declared, fits⟩ := (sound struct listed).exists_of_mem present
      exact known_iff.mp fits.type
    · intro struct listed place inside dimension sized dynamic
      rcases (each listed place inside).dimensions dimension sized with constant | carried
      · rw [dynamic] at constant
        cases constant
      · exact (Dimension.carried_take_iff inside).mp carried

/-- **Validation reports a fault exactly for the schemas that break a rule.** -/
theorem validate_eq_error_iff :
    (∃ fault, schema.validate = .error fault) ↔ ¬schema.WellFormed := by
  rw [wellFormed_iff, ← validate_eq_ok_iff]
  cases schema.validate with
  | error fault => simp
  | ok value => simp

end Schema

end Wireform
