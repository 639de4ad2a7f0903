import Mathlib.Algebra.Group.Int.Defs
import Mathlib.Algebra.Group.Nat.Defs
import Mathlib.Data.Finset.Card
import Wireform.Proofs.Schema.Validity

/-! # Walks over a type graph

The walk of a structural hash goes down from struct to struct and leaves out the types on its path.
It ends on every type graph, cyclic or not: each step down puts one more name of the schema on the
path, so the calls are never nested deeper than there are names off the path
(`Wireform.Schema.limitedHash_eq_integral`). Stated for a walk over plain integers whose depth is
limited, this says that the limit is not reached, and that base hashes of any size give a number of
64 bits.

A walk fails exactly where an undefined type is reached by a chain of member types that keeps off
the path (`Wireform.Schema.exists_error_iff_reaches`). A chain may come back to a name that it has
passed, and the walk does not; but what lies behind the last visit to a name is reached without it
(`Wireform.Schema.Reaches.beyond`).
-/

namespace Wireform

/-- Why a walk of limited depth has no result. -/
inductive WalkFault where
  | tooDeep
  | unknownType (fault : UnknownType)
  deriving DecidableEq, Repr

/-- An integer turned left by one bit, as a number of 64 bits. -/
def turnLeft (value : Int) : Int := value * 2 % 2 ^ 64 + value / 2 ^ 63 % 2

/-- Turning a word doubles it and brings its top bit to the bottom. -/
theorem HashWord.toNat_rotate_eq_add (word : HashWord) :
    word.rotate.toNat = word.toNat * 2 % 2 ^ 64 + word.toNat / 2 ^ 63 := by
  have disjoint : word <<< 1 &&& word >>> 63 = 0#64 := by
    ext i inside
    rcases Nat.eq_zero_or_pos i with rfl | positive
    · simp
    · have outside : word.getLsbD (63 + i) = false := word.getLsbD_of_ge _ (by omega)
      simp [outside]
  rw [HashWord.rotate, BitVec.rotateLeft_def, ← BitVec.add_eq_or_of_and_eq_zero _ _ disjoint,
    BitVec.toNat_add_of_and_eq_zero disjoint, BitVec.toNat_shiftLeft, BitVec.toNat_ushiftRight,
    Nat.shiftLeft_eq, Nat.shiftRight_eq_div_pow]

private theorem turnLeft_eq_rotate (value : Int) :
    turnLeft value = ((HashWord.ofInt value).rotate.toNat : Int) := by
  rw [HashWord.toNat_rotate_eq_add, HashWord.ofInt, BitVec.toNat_ofInt, turnLeft]
  have natural : 0 ≤ value % 2 ^ 64 := Int.emod_nonneg _ (by decide)
  omega

namespace Schema

/-! ### Depth -/

/-- The names of the schema that are not on a path, each once. -/
def namesOff (schema : Schema) (path : List PathEntry) : Finset String :=
  schema.names.toFinset.filter (pathEntry · ∉ path)

/-- One step of the sum of a hash over the integers, with a function for the hashes below. -/
def addInteger (schema : Schema) (hash : Struct → List PathEntry → Except WalkFault Int)
    (below : List PathEntry) (sum : Int) (type : String) : Except WalkFault Int :=
  if below.contains (pathEntry type) then pure sum
  else match schema.lookup? type with
    | none => throw (.unknownType ⟨type⟩)
    | some child => do return (sum + (← hash child below)) % 2 ^ 64

/-- The hash of a struct below a path over the integers, where at most `depth` calls may be nested
in one another. A base hash enters as it is; only sums are cut to 64 bits. -/
def limitedHash (schema : Schema) : Nat → Struct → List PathEntry → Except WalkFault Int
  | 0, _, _ => throw .tooDeep
  | depth + 1, struct, path => do
      let below := path ++ [pathEntry struct.name]
      let sum ← struct.dependencies.foldlM (schema.addInteger (schema.limitedHash depth) below)
        struct.baseHash
      return turnLeft sum

/-- The outcome of a walk over words as the outcome of a walk over the integers. -/
def integral (outcome : Except UnknownType HashWord) : Except WalkFault Int :=
  (outcome.mapError .unknownType).map fun word => (word.toNat : Int)

private theorem namesOff_append_subset (schema : Schema) (path : List PathEntry) (name : String) :
    schema.namesOff (path ++ [pathEntry name]) ⊆ schema.namesOff path := by
  intro other member
  simp only [namesOff, Finset.mem_filter, List.mem_append, not_or] at member ⊢
  exact ⟨member.1, member.2.1⟩

variable {schema : Schema} {struct : Struct} {path : List PathEntry}

/-- A step down to a struct takes its name from those off the path. -/
theorem card_namesOff_lt {type : String} {child : Struct} (found : schema.lookup? type = some child)
    (offPath : path.contains (pathEntry type) = false) :
    (schema.namesOff (path ++ [pathEntry child.name])).card < (schema.namesOff path).card := by
  have named : child.name = type := name_of_lookup? found
  refine Finset.card_lt_card ((Finset.ssubset_iff_of_subset
    (namesOff_append_subset schema path _)).mpr ⟨child.name, ?_, ?_⟩)
  · have listed : child.name ∈ schema.names := List.mem_map_of_mem (mem_of_lookup? found)
    have free : pathEntry child.name ∉ path := by
      rw [named, ← List.contains_iff_mem, offPath]
      exact Bool.false_ne_true
    exact Finset.mem_filter.mpr ⟨List.mem_toFinset.mpr listed, free⟩
  · intro member
    exact (Finset.mem_filter.mp member).2 (List.mem_append_right _ (List.mem_singleton.mpr rfl))

/-- A word is the word of its number. -/
theorem ofInt_toNat (word : HashWord) : HashWord.ofInt (word.toNat : Int) = word := by
  rw [HashWord.ofInt, BitVec.ofInt_natCast, BitVec.ofNat_toNat, BitVec.setWidth_eq]

private theorem ofInt_add_emod (sum : Int) (word : HashWord) :
    HashWord.ofInt ((sum + (word.toNat : Int)) % 2 ^ 64) = HashWord.ofInt sum + word := by
  have reduced : HashWord.ofInt ((sum + (word.toNat : Int)) % 2 ^ 64) =
      HashWord.ofInt (sum + (word.toNat : Int)) := by
    apply BitVec.eq_of_toNat_eq
    rw [HashWord.ofInt, HashWord.ofInt, BitVec.toNat_ofInt, BitVec.toNat_ofInt]
    exact congrArg Int.toNat (Int.emod_emod_of_dvd _ (Int.dvd_refl _))
  rw [reduced, HashWord.ofInt, BitVec.ofInt_add]
  exact congrArg (HashWord.ofInt sum + ·) (ofInt_toNat word)

/-- **The limit is not reached.** A walk that may nest one call for the struct and one for each name
off the path has the outcome of the structural hash, over the integers. -/
theorem limitedHash_eq_integral {depth : Nat}
    (deep : (schema.namesOff (path ++ [pathEntry struct.name])).card < depth) :
    schema.limitedHash depth struct path = integral (schema.structuralHash struct path) := by
  induction depth generalizing struct path with
  | zero => exact absurd deep (Nat.not_lt_zero _)
  | succ depth ih =>
      have each : ∀ type ∈ struct.dependencies, ∀ sum : Int,
          (schema.addInteger (schema.limitedHash depth) (path ++ [pathEntry struct.name])
            sum type).map HashWord.ofInt =
          (schema.addDependency (path ++ [pathEntry struct.name]) (HashWord.ofInt sum)
            type).mapError .unknownType := by
        intro type _ sum
        unfold addInteger addDependency
        split
        · rfl
        · next offPath =>
            cases found : schema.lookup? type with
            | none => rfl
            | some child =>
                -- the name of the child is on the path from here on
                have fewer := card_namesOff_lt found (Bool.eq_false_iff.mpr offPath)
                have below : schema.limitedHash depth child (path ++ [pathEntry struct.name]) = _ :=
                  ih (by omega)
                dsimp only
                rw [below]
                cases schema.structuralHash child (path ++ [pathEntry struct.name]) with
                | error fault => rfl
                | ok word => exact congrArg Except.ok (ofInt_add_emod sum word)
      have sums := Outcome.map_foldlM each struct.baseHash
      rw [structuralHash_eq_foldlM, limitedHash]
      cases summed : struct.dependencies.foldlM (schema.addInteger (schema.limitedHash depth)
          (path ++ [pathEntry struct.name])) struct.baseHash with
      | error fault =>
          rw [summed] at sums
          obtain ⟨unknown, failed, rfl⟩ := Outcome.mapError_eq_error.mp sums.symm
          rw [failed]
          rfl
      | ok sum =>
          rw [summed] at sums
          rw [Outcome.mapError_eq_ok.mp sums.symm]
          exact congrArg Except.ok (turnLeft_eq_rotate sum)

/-! ### Faults -/

/-- A type name that is reached from a struct by a chain of member types. Each name on the way
stands for the first struct of that name, and no name of the chain is among `avoided`. -/
inductive Reaches (schema : Schema) (avoided : List String) : Struct → String → Prop
  | member {struct : Struct} {type : String} (named : type ∈ struct.dependencies)
      (free : type ∉ avoided) : Reaches schema avoided struct type
  | through {struct child : Struct} {type target : String} (named : type ∈ struct.dependencies)
      (free : type ∉ avoided) (found : schema.lookup? type = some child)
      (rest : Reaches schema avoided child target) : Reaches schema avoided struct target

private theorem Reaches.mono {avoided fewer : List String} {target : String}
    (reached : schema.Reaches avoided struct target) (subset : fewer ⊆ avoided) :
    schema.Reaches fewer struct target := by
  induction reached with
  | member named free => exact .member named fun listed => free (subset listed)
  | through named free found _ ih =>
      exact .through named (fun listed => free (subset listed)) found ih

/-- Behind the last visit to a name, a chain does without the name. -/
theorem Reaches.beyond {avoided : List String} {target type : String} {child : Struct}
    (reached : schema.Reaches avoided struct target) (found : schema.lookup? type = some child)
    (undefined : schema.lookup? target = none) :
    schema.Reaches (avoided ++ [type]) struct target ∨
      schema.Reaches (avoided ++ [type]) child target := by
  have extended : ∀ {name : String}, name ∉ avoided → name ≠ type → name ∉ avoided ++ [type] := by
    intro name free other
    rw [List.mem_append, List.mem_singleton, not_or]
    exact ⟨free, other⟩
  induction reached with
  | @member struct target named free =>
      have other : target ≠ type := by
        rintro rfl
        rw [undefined] at found
        cases found
      exact .inl (.member named (extended free other))
  | @through struct next name target named free foundNext _ ih =>
      rcases ih undefined with within | behind
      · by_cases same : name = type
        · subst same
          obtain rfl := Option.some.inj (foundNext.symm.trans found)
          exact .inr within
        · exact .inl (.through named (extended free same) foundNext within)
      · exact .inr behind

/-- **Where a walk fails.** The walk from a struct fails exactly where an undefined type is reached
from it by a chain that keeps off the path. -/
theorem exists_error_iff_reaches (names : List String) :
    (∃ fault, schema.structuralHash struct (pathOf names) = .error fault) ↔
      ∃ type, schema.lookup? type = none ∧
        schema.Reaches (names ++ [struct.name]) struct type := by
  -- each step down puts one more struct on the path
  induction count : (schema.offPath (pathOf (names ++ [struct.name]))).length
      using Nat.strongRecOn generalizing struct names with
  | ind count ih =>
    rw [structuralHash_eq_foldlM, pathOf_concat]
    have free : ∀ type, (pathOf (names ++ [struct.name])).contains (pathEntry type) = false ↔
        type ∉ names ++ [struct.name] := by
      intro type
      rw [contains_pathOf, Bool.eq_false_iff, ne_eq, List.contains_iff_mem]
    have below : ∀ type child, schema.lookup? type = some child → type ∉ names ++ [struct.name] →
        ((∃ fault, schema.structuralHash child (pathOf (names ++ [struct.name])) = .error fault) ↔
          ∃ target, schema.lookup? target = none ∧
            schema.Reaches (names ++ [struct.name] ++ [type]) child target) := by
      intro type child found offPath
      have shorter := length_offPath_lt found ((free type).mpr offPath)
      rw [pathOf_concat, count] at shorter
      have inner := ih _ shorter (names ++ [struct.name]) rfl
      rwa [name_of_lookup? found] at inner
    constructor
    · rintro ⟨fault, failed⟩
      have summing := (Outcome.bind_eq_error.mp failed).resolve_right fun ⟨_, _, turned⟩ => by
        cases turned
      obtain ⟨type, named, sum, step⟩ := Outcome.exists_of_foldlM_eq_error summing
      obtain ⟨offPath, ⟨missing, -⟩ | ⟨child, found, failedBelow⟩⟩ :=
        addDependency_eq_error_iff.mp step
      · exact ⟨type, missing, .member named ((free type).mp offPath)⟩
      · have off := (free type).mp offPath
        obtain ⟨target, undefined, reached⟩ := (below type child found off).mp ⟨fault, failedBelow⟩
        exact ⟨target, undefined, .through named off found
          (reached.mono (List.subset_append_left _ _))⟩
    · rintro ⟨target, undefined, reached⟩
      suffices summing : ∃ fault, struct.dependencies.foldlM
          (schema.addDependency (pathOf (names ++ [struct.name])))
          (HashWord.ofInt struct.baseHash) = .error fault by
        obtain ⟨fault, failed⟩ := summing
        exact ⟨fault, Outcome.bind_eq_error.mpr (.inl failed)⟩
      cases reached with
      | member named off =>
          refine Outcome.exists_foldlM_eq_error named (fun sum => ⟨⟨target⟩, ?_⟩) _
          exact addDependency_eq_error_iff.mpr ⟨(free target).mpr off, .inl ⟨undefined, rfl⟩⟩
      | @through _ child type _ named off found rest =>
          refine Outcome.exists_foldlM_eq_error named (fun sum => ?_) _
          have reachedBelow := (rest.beyond found undefined).elim id id
          obtain ⟨fault, failed⟩ :=
            (below type child found off).mpr ⟨target, undefined, reachedBelow⟩
          exact ⟨fault, addDependency_eq_error_iff.mpr
            ⟨(free type).mpr off, .inr ⟨child, found, failed⟩⟩⟩

/-! ### Outcomes -/

/-- A struct from which an undefined type is reached without coming back to the name of the
struct. -/
def ReachesUndefined (schema : Schema) (struct : Struct) : Prop :=
  ∃ type, schema.lookup? type = none ∧ schema.Reaches [struct.name] struct type

private theorem range_of_integral {outcome : Except UnknownType HashWord} {value : Int}
    (found : integral outcome = .ok value) : 0 ≤ value ∧ value < 2 ^ 64 := by
  cases outcome with
  | error fault => cases found
  | ok word =>
      have number : (word.toNat : Int) = value := Except.ok.inj found
      have bounded := word.isLt
      omega

/-- **Outcomes of structural hashes.** In any schema and below any path, the walk from a struct ends
with its calls nested no deeper than one more than there are names of the schema off the path. From
the top it fails exactly where an undefined type is reached without coming back to the struct, and
gives a number of 64 bits otherwise. In a sound schema it does not fail. -/
theorem structuralHash_outcome (schema : Schema) (struct : Struct) :
    (∀ path depth, 1 + (schema.namesOff path).card ≤ depth →
      schema.limitedHash depth struct path = integral (schema.structuralHash struct path) ∧
      ∀ value, schema.limitedHash depth struct path = .ok value → 0 ≤ value ∧ value < 2 ^ 64) ∧
    ((∃ fault, schema.structuralHash struct [] = .error fault) ↔ schema.ReachesUndefined struct) ∧
    (¬ schema.ReachesUndefined struct → ∃ word, schema.structuralHash struct [] = .ok word) ∧
    (schema.validate = .ok () → struct ∈ schema.structs →
      ∀ path, ∃ word, schema.structuralHash struct path = .ok word) := by
  have fails : (∃ fault, schema.structuralHash struct [] = .error fault) ↔
      schema.ReachesUndefined struct := exists_error_iff_reaches []
  refine ⟨?_, fails, ?_, ?_⟩
  · intro path depth enough
    have fewer := Finset.card_le_card (namesOff_append_subset schema path struct.name)
    have same : schema.limitedHash depth struct path = _ := limitedHash_eq_integral (by omega)
    exact ⟨same, fun value found => range_of_integral (same.symm.trans found)⟩
  · intro defined
    cases outcome : schema.structuralHash struct [] with
    | error fault => exact absurd (fails.mp ⟨fault, outcome⟩) defined
    | ok word => exact ⟨word, rfl⟩
  · intro valid listed path
    exact exists_structuralHash (closed_of_validate valid) listed path

/-- A tree and its branches name each other, and have base hashes of any size. A stray struct that
names an undefined type has no hash, though it may name itself. -/
theorem structuralHash_outcome_tree :
    let tree : Struct := ⟨"tree", [⟨"trunk", .compound "branch", []⟩], -1⟩
    let branch : Struct := ⟨"branch", [⟨"origin", .compound "tree", []⟩,
      ⟨"fork", .compound "branch", []⟩], 2 ^ 64 + 5⟩
    let schema : Schema := ⟨[tree, branch]⟩
    let stray : Struct := ⟨"stray", [⟨"again", .compound "stray", []⟩,
      ⟨"root", .compound "root", []⟩], 0⟩
    schema.validate = .ok () ∧ 1 + (schema.namesOff []).card ≤ 3 ∧
      schema.limitedHash 3 tree [] = .ok 18 ∧
      (∃ fault, schema.structuralHash stray [] = .error fault) ∧
      ∀ path, ∃ word, schema.structuralHash tree path = .ok word := by
  intro tree branch schema stray
  have valid : schema.validate = .ok () := by decide +kernel
  have bound : 1 + (schema.namesOff []).card ≤ 3 := by decide +kernel
  have word : schema.structuralHash tree [] = .ok 18 := by decide +kernel
  obtain ⟨depths, -, -, hashes⟩ := structuralHash_outcome schema tree
  have undefined : schema.ReachesUndefined stray :=
    ⟨"root", by decide +kernel, .member (by decide +kernel) (by decide +kernel)⟩
  refine ⟨valid, bound, ?_, (structuralHash_outcome schema stray).2.1.mpr undefined,
    hashes valid List.mem_cons_self⟩
  rw [(depths [] 3 bound).1, word]
  rfl

end Schema

end Wireform
