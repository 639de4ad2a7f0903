import Wireform.Proofs.Schema.StructuralHash
import Wireform.Schema.Validation

/-! # Sound schemas

Validation scans a schema and carries along what it has met. It accepts exactly the schemas whose
struct names differ and whose structs are sound (`Wireform.Schema.validate_eq_ok_iff`). In a sound
struct each member has a name of its own and a known type, and a dynamic dimension is carried by an
earlier scalar of an integer type (`Wireform.Member.Sound`). Neither the order of the structs nor
the presence of further ones matters to a sound struct, and its dependencies are all defined
(`Wireform.Schema.closed_of_validate`).
-/

namespace Wireform

/-- A dimension whose extent is carried by a scalar of an integer type, declared before it. -/
def Dimension.Carried (declared : List Member) (dimension : Dimension) : Prop :=
  ∃ length ∈ declared, length.name = dimension.size ∧ length.isArray = false ∧
    length.type.isInteger = true

/-- A member that may stand after some members, in a schema that knows some types. -/
structure Member.Sound (known : List String) (declared : List Member) (member : Member) :
    Prop where
  fresh : ∀ earlier ∈ declared, earlier.name ≠ member.name
  type : ∀ type, member.type = .compound type → type ∈ known
  dimensions : ∀ dimension ∈ member.dimensions,
    dimension.isConstant = true ∨ dimension.Carried declared

/-- A struct whose members are sound, each after the ones before it. -/
def Struct.Sound (known : List String) (struct : Struct) : Prop :=
  ∀ before member after, struct.members = before ++ member :: after → member.Sound known before

private theorem Member.Sound.mono {known others : List String} {declared : List Member}
    {member : Member}
    (sound : member.Sound known declared) (subset : known ⊆ others) :
    member.Sound others declared where
  fresh := sound.fresh
  type := fun type compound => subset (sound.type type compound)
  dimensions := sound.dimensions

/-- A struct stays sound when more structs are known. -/
theorem Struct.Sound.mono {known others : List String} {struct : Struct}
    (sound : struct.Sound known) (subset : known ⊆ others) : struct.Sound others :=
  fun before member after shape => (sound before member after shape).mono subset

/-- Each member of a sound struct is sound after those declared before it. -/
theorem Struct.Sound.exists_of_mem {known : List String} {struct : Struct}
    (sound : struct.Sound known) {member : Member} (listed : member ∈ struct.members) :
    ∃ declared, member.Sound known declared := by
  obtain ⟨before, after, shape⟩ := List.append_of_mem listed
  exact ⟨before, sound before member after shape⟩

private theorem Struct.Sound.mem_of_dependencies {known : List String} {struct : Struct}
    (sound : struct.Sound known) {type : String} (present : type ∈ struct.dependencies) :
    type ∈ known := by
  obtain ⟨member, listed, compound⟩ := struct.exists_of_mem_dependencies present
  obtain ⟨declared, soundMember⟩ := sound.exists_of_mem listed
  exact soundMember.type type compound

namespace Schema

variable {known : List String} {declared : List Member} {struct : String} {member : Member}

private theorem checkDimension_eq_ok_iff (distinct : (declared.map (·.name)).Nodup) {name : String}
    {dimension : Dimension} :
    checkDimension struct name declared dimension = .ok () ↔
      dimension.isConstant = true ∨ dimension.Carried declared := by
  unfold checkDimension
  split
  · next constant => exact ⟨fun _ => .inl constant, fun _ => rfl⟩
  · next dynamic =>
      constructor
      · intro run
        split at run
        · cases run
        · next length search =>
            split at run
            · cases run
            · next scalar =>
                simp only [Bool.or_eq_true, Bool.not_eq_true', not_or, Bool.not_eq_true,
                  Bool.not_eq_false] at scalar
                have named := List.find?_some search
                exact .inr ⟨length, List.mem_of_find?_eq_some search, beq_iff_eq.mp named, scalar⟩
      · rintro (constant | ⟨length, listed, named, single, integer⟩)
        · exact absurd constant dynamic
        · -- the names before the member differ, so the search stops at the carrier
          have search := find?_of_nodup Member.name distinct listed
          rw [named] at search
          rw [search]
          simp [single, integer]

private theorem checkMember_eq_ok_iff (distinct : (declared.map (·.name)).Nodup) :
    checkMember known struct declared member = .ok () ↔ member.Sound known declared := by
  have lengths : member.dimensions.forM (checkDimension struct member.name declared) = .ok () ↔
      ∀ dimension ∈ member.dimensions,
        dimension.isConstant = true ∨ dimension.Carried declared := by
    rw [Outcome.forM_eq_ok]
    exact forall₂_congr fun dimension _ => checkDimension_eq_ok_iff distinct
  unfold checkMember
  split
  · next twice =>
      constructor
      · intro run
        cases run
      · intro sound
        obtain ⟨earlier, listed, same⟩ := List.any_eq_true.mp twice
        exact absurd (beq_iff_eq.mp same) (sound.fresh earlier listed)
  · next once =>
      have fresh : ∀ earlier ∈ declared, earlier.name ≠ member.name := by
        intro earlier listed same
        exact once (List.any_eq_true.mpr ⟨earlier, listed, beq_iff_eq.mpr same⟩)
      split
      · next primitive =>
          rw [lengths]
          refine ⟨fun carried => ⟨fresh, ?_, carried⟩, fun sound => sound.dimensions⟩
          intro type compound
          rw [primitive] at compound
          cases compound
      · next type compound =>
          split
          · next defined =>
              rw [lengths]
              refine ⟨fun carried => ⟨fresh, ?_, carried⟩, fun sound => sound.dimensions⟩
              intro other same
              obtain rfl := FieldType.compound.inj (compound.symm.trans same)
              exact List.contains_iff_mem.mp defined
          · next undefined =>
              constructor
              · intro run
                cases run
              · intro sound
                exact absurd (List.contains_iff_mem.mpr (sound.type type compound)) undefined

/-- The members after some others are accepted where each is sound after all before it. -/
theorem checkMembers_eq_ok_iff {members : List Member}
    (distinct : (declared.map (·.name)).Nodup) :
    checkMembers known struct declared members = .ok () ↔
      ∀ before member after, members = before ++ member :: after →
        member.Sound known (declared ++ before) := by
  induction members generalizing declared with
  | nil =>
      refine ⟨fun _ before member after shape => ?_, fun _ => rfl⟩
      simp at shape
  | cons first rest ih =>
      have accepts : checkMember known struct declared first = .ok () ↔
          first.Sound known declared := checkMember_eq_ok_iff distinct
      have step : checkMembers known struct declared (first :: rest) = .ok () ↔
          first.Sound known declared ∧
            checkMembers known struct (declared ++ [first]) rest = .ok () := by
        rw [← accepts, checkMembers]
        cases checkMember known struct declared first <;> simp
      have extended (sound : first.Sound known declared) :
          ((declared ++ [first]).map (·.name)).Nodup := by
        rw [List.map_append, List.nodup_append]
        refine ⟨distinct, List.nodup_singleton _, ?_⟩
        intro name earlier other named
        obtain ⟨owner, listed, rfl⟩ := List.mem_map.mp earlier
        rw [List.map_cons, List.map_nil, List.mem_singleton] at named
        exact named ▸ sound.fresh owner listed
      rw [step]
      constructor
      · rintro ⟨sound, accepted⟩ before member after shape
        rcases List.cons_eq_append_iff.mp shape with ⟨rfl, head⟩ | ⟨earlier, rfl, tail⟩
        · obtain ⟨rfl, -⟩ := List.cons.inj head
          rwa [List.append_nil]
        · have later := (ih (extended sound)).mp accepted earlier member after tail
          rwa [List.append_assoc] at later
      · intro sound
        have head : first.Sound known declared := by
          simpa using sound [] first rest rfl
        refine ⟨head, (ih (extended head)).mpr ?_⟩
        rintro before member after rfl
        have later := sound (first :: before) member after rfl
        rwa [List.append_assoc]

private theorem checkNames_eq_ok_iff {structs : List Struct} {seen : List String} :
    checkNames seen structs = .ok () ↔
      (structs.map (·.name)).Nodup ∧ ∀ struct ∈ structs, struct.name ∉ seen := by
  induction structs generalizing seen with
  | nil => simp [checkNames]
  | cons struct structs ih =>
      rw [checkNames, List.map_cons, List.nodup_cons, List.forall_mem_cons]
      split
      · next twice =>
          constructor
          · intro run
            cases run
          · rintro ⟨-, fresh, -⟩
            exact absurd (List.contains_iff_mem.mp twice) fresh
      · next once =>
          have fresh : struct.name ∉ seen := fun met => once (List.contains_iff_mem.mpr met)
          rw [ih]
          constructor
          · rintro ⟨distinct, apart⟩
            refine ⟨⟨?_, distinct⟩, fresh, ?_⟩
            · intro again
              obtain ⟨other, listed, same⟩ := List.mem_map.mp again
              exact apart other listed (same ▸ List.mem_cons_self)
            · intro other listed met
              exact apart other listed (List.mem_cons_of_mem _ met)
          · rintro ⟨⟨unused, distinct⟩, -, apart⟩
            refine ⟨distinct, ?_⟩
            intro other listed met
            rcases List.mem_cons.mp met with same | earlier
            · exact unused (same ▸ List.mem_map_of_mem listed)
            · exact apart other listed earlier

/-- **Validation accepts exactly the sound schemas.** -/
theorem validate_eq_ok_iff {schema : Schema} :
    schema.validate = .ok () ↔
      schema.names.Nodup ∧ ∀ struct ∈ schema.structs, struct.Sound schema.names := by
  have names : checkNames [] schema.structs = .ok () ↔ schema.names.Nodup := by
    rw [checkNames_eq_ok_iff]
    exact and_iff_left fun _ _ => List.not_mem_nil
  have members : (schema.structs.forM fun struct =>
      checkMembers schema.names struct.name [] struct.members) = .ok () ↔
        ∀ struct ∈ schema.structs, struct.Sound schema.names := by
    rw [Outcome.forM_eq_ok]
    exact forall₂_congr fun struct _ => checkMembers_eq_ok_iff List.nodup_nil
  rw [← names, ← members, validate]
  cases checkNames [] schema.structs <;> simp

/-- In a valid schema, every type that a member names is defined. -/
theorem closed_of_validate {schema : Schema} (valid : schema.validate = .ok ()) :
    schema.Closed :=
  fun struct listed _ present =>
    ((validate_eq_ok_iff.mp valid).2 struct listed).mem_of_dependencies present

end Schema

end Wireform
