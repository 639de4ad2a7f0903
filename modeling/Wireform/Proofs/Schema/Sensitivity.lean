import Mathlib.Data.Set.Function
import Wireform.Proofs.Registry.Coherence
import Wireform.Proofs.Schema.Walk

/-! # What a nested struct does to a hash

The walk of a structural hash is one of many over the same structs (`Wireform.Schema.walk`): it sums
words, and another walk lists the names of the structs that are entered
(`Wireform.Schema.entered`). Two walks go the same way whatever they collect, so a relation between
what they collect holds of their results where every step keeps it
(`Wireform.Schema.related_walk`).

Two hashes whose base words differ in one struct only are compared along such a relation. Sums and
turned words are the same only where their parts are, so a struct that is entered once shows in the
result (`Wireform.Schema.structuralHash_injOn_of_entered_once`).
-/

namespace Wireform

/-! ### Walks -/

/-- What a walk collects: what it starts with in a struct, how it adds what it collects in a struct
below, and what it makes of the sum when it leaves. -/
structure Reading (σ : Type) where
  start : Struct → σ
  add : σ → σ → σ
  finish : σ → σ

namespace Reading

/-- The sum of a structural hash, with a word for each struct. -/
def hash (base : Struct → HashWord) : Reading HashWord := ⟨base, (· + ·), HashWord.rotate⟩

/-- The names of the structs that are entered, in order. -/
def names : Reading (List String) := ⟨fun struct => [struct.name], (· ++ ·), id⟩

/-- Two readings at once. -/
def pair {σ τ : Type} (left : Reading σ) (right : Reading τ) : Reading (σ × τ) where
  start := fun struct => (left.start struct, right.start struct)
  add := fun sum below => (left.add sum.1 below.1, right.add sum.2 below.2)
  finish := fun sum => (left.finish sum.1, right.finish sum.2)

end Reading

namespace Schema

/-- What a walk collects in a struct and below it, when it has come along `path`. -/
def walk {σ : Type} (schema : Schema) (reading : Reading σ) (struct : Struct)
    (path : List PathEntry) : Except UnknownType σ := do
  let below := path ++ [pathEntry struct.name]
  let addBelow := fun (sum : σ) (type : String) =>
    if _onPath : below.contains (pathEntry type) = true then pure sum
    else match _found : schema.lookup? type with
      | none => throw ⟨type⟩
      | some child => do return reading.add sum (← walk schema reading child below)
  let sum ← struct.dependencies.foldlM addBelow (reading.start struct)
  return reading.finish sum
termination_by (schema.offPath (path ++ [pathEntry struct.name])).length
decreasing_by exact length_offPath_lt _found (Bool.eq_false_iff.2 _onPath)

/-- The names of the structs that the walk from a struct enters, each as often as it is entered. -/
def entered (schema : Schema) (struct : Struct) (path : List PathEntry) :
    Except UnknownType (List String) :=
  schema.walk .names struct path

/-- One step of a walk. -/
def addBelow {σ : Type} (schema : Schema) (reading : Reading σ) (below : List PathEntry) (sum : σ)
    (type : String) : Except UnknownType σ :=
  if below.contains (pathEntry type) then pure sum
  else match schema.lookup? type with
    | none => throw ⟨type⟩
    | some child => do return reading.add sum (← schema.walk reading child below)

variable {σ τ : Type} {schema other : Schema} {struct : Struct} {path : List PathEntry}

private theorem walk_eq_foldlM (reading : Reading σ) :
    schema.walk reading struct path = (do
      let sum ← struct.dependencies.foldlM
        (schema.addBelow reading (path ++ [pathEntry struct.name])) (reading.start struct)
      return reading.finish sum) := by
  rw [walk]
  congr 2
  funext sum type
  dsimp only [addBelow]
  split
  · rfl
  · split
    · next missing => rw [missing]
    · next child found => rw [found]

/-- The structural hash is what one of these walks collects. -/
theorem structuralHash_eq_walk :
    schema.structuralHash struct path =
      schema.walk (.hash fun struct => HashWord.ofInt struct.baseHash) struct path := by
  -- each step down puts one more struct on the path
  induction count : (schema.offPath (path ++ [pathEntry struct.name])).length
      using Nat.strongRecOn generalizing struct path with
  | ind count ih =>
    rw [structuralHash_eq_foldlM, walk_eq_foldlM]
    congr 2
    funext sum type
    unfold addDependency addBelow
    split
    · rfl
    · next offPath =>
        cases found : schema.lookup? type with
        | none => rfl
        | some child =>
            have shorter := length_offPath_lt found (Bool.eq_false_iff.mpr offPath)
            rw [count] at shorter
            dsimp only
            rw [ih _ shorter rfl]
            rfl

/-- A schema with the names and the dependencies of another one, struct by struct. -/
structure Matches (image : Struct → Struct) (schema other : Schema) : Prop where
  name : ∀ struct, (image struct).name = struct.name
  dependencies : ∀ struct, (image struct).dependencies = struct.dependencies
  lookup? : ∀ type, other.lookup? type = (schema.lookup? type).map image

/-- **Walks keep a relation.** Two walks over the same structs enter them in the same order, so what
they collect stays in a relation that every step keeps. -/
theorem related_walk {image : Struct → Struct} (alike : Matches image schema other)
    {reading : Reading σ} {second : Reading τ} {relation : σ → τ → Prop}
    (start : ∀ struct ∈ schema.structs,
      relation (reading.start struct) (second.start (image struct)))
    (add : ∀ {sum below : σ} {sum' below' : τ}, relation sum sum' → relation below below' →
      relation (reading.add sum below) (second.add sum' below'))
    (finish : ∀ {sum : σ} {sum' : τ}, relation sum sum' →
      relation (reading.finish sum) (second.finish sum'))
    (listed : struct ∈ schema.structs) :
    Outcome.Related relation (schema.walk reading struct path)
      (other.walk second (image struct) path) := by
  induction count : (schema.offPath (path ++ [pathEntry struct.name])).length
      using Nat.strongRecOn generalizing struct path with
  | ind count ih =>
    rw [walk_eq_foldlM, walk_eq_foldlM, alike.name, alike.dependencies]
    refine Outcome.Related.bind (Outcome.Related.foldlM ?_ (start struct listed))
      fun sum sum' kept => .ok (finish kept)
    intro type _ sum sum' kept
    unfold addBelow
    rw [alike.lookup?]
    split
    · exact .ok kept
    · next offPath =>
        cases found : schema.lookup? type with
        | none => exact .error _
        | some child =>
            have shorter := length_offPath_lt found (Bool.eq_false_iff.mpr offPath)
            rw [count] at shorter
            exact (ih _ shorter (mem_of_lookup? found) rfl).bind
              fun below below' keptBelow => .ok (add kept keptBelow)

private theorem Matches.refl (schema : Schema) : Matches id schema schema where
  name := fun _ => rfl
  dependencies := fun _ => rfl
  lookup? := fun type => by rw [Option.map_id, id]

/-- A walk ends well or fails whatever it collects. -/
theorem exists_walk_eq_ok {reading : Reading σ} (second : Reading τ)
    (listed : struct ∈ schema.structs) {collected : σ}
    (walked : schema.walk reading struct path = .ok collected) :
    ∃ found, schema.walk second struct path = .ok found := by
  have related : Outcome.Related (fun _ _ => True) (schema.walk reading struct path)
      (schema.walk second struct path) :=
    related_walk (.refl schema) (fun _ _ => trivial) (fun _ _ => trivial) (fun _ => trivial) listed
  rw [walked] at related
  cases found : schema.walk second struct path with
  | error fault =>
      rw [found] at related
      cases related
  | ok value => exact ⟨value, rfl⟩

/-- Two walks at once give what both give. -/
theorem walk_pair {reading : Reading σ} {second : Reading τ} (listed : struct ∈ schema.structs)
    {left : σ} {right : τ} (first : schema.walk reading struct path = .ok left)
    (also : schema.walk second struct path = .ok right) :
    schema.walk (reading.pair second) struct path = .ok (left, right) := by
  have onLeft : Outcome.Related (fun both one => both.1 = one)
      (schema.walk (reading.pair second) struct path) (schema.walk reading struct path) :=
    related_walk (.refl schema) (fun _ _ => rfl) (fun same below => by rw [← same, ← below]; rfl)
      (fun same => by rw [← same]; rfl) listed
  have onRight : Outcome.Related (fun both one => both.2 = one)
      (schema.walk (reading.pair second) struct path) (schema.walk second struct path) :=
    related_walk (.refl schema) (fun _ _ => rfl) (fun same below => by rw [← same, ← below]; rfl)
      (fun same => by rw [← same]; rfl) listed
  rw [first] at onLeft
  rw [also] at onRight
  cases both : schema.walk (reading.pair second) struct path with
  | error fault =>
      rw [both] at onLeft
      cases onLeft
  | ok collected =>
      rw [both] at onLeft onRight
      rw [← onLeft.of_ok, ← onRight.of_ok]

/-! ### One struct changed -/

/-- Two words that may differ through one struct only: they are the same where the struct was not
entered, and differ where it was entered once. -/
def Tells (nested : String) (collected : List String × HashWord) (word : HashWord) : Prop :=
  (collected.1.count nested = 0 → collected.2 = word) ∧
    (collected.1.count nested = 1 → collected.2 ≠ word)

/-- The top bit of a word is the lowest bit of the turned word, and the others move up. -/
theorem rotate_injective : Function.Injective HashWord.rotate := by
  have turned : ∀ word : HashWord, word.rotate.toNat =
      if word.toNat < 2 ^ 63 then 2 * word.toNat else 2 * word.toNat - 2 ^ 64 + 1 := by
    intro word
    have bounded := word.isLt
    rw [HashWord.toNat_rotate_eq_add]
    split <;> omega
  intro left right same
  apply BitVec.eq_of_toNat_eq
  have numbers := congrArg BitVec.toNat same
  rw [turned, turned] at numbers
  split at numbers <;> split at numbers <;> omega

private theorem Tells.add {nested : String} {names below : List String}
    {sum word sum' word' : HashWord}
    (kept : Tells nested (names, sum) sum') (keptBelow : Tells nested (below, word) word') :
    Tells nested (names ++ below, sum + word) (sum' + word') := by
  obtain ⟨same, differ⟩ := kept
  obtain ⟨sameBelow, differBelow⟩ := keptBelow
  dsimp only at same differ sameBelow differBelow
  constructor
  · intro absent
    rw [List.count_append] at absent
    dsimp only
    rw [same (by omega), sameBelow (by omega)]
  · intro once
    rw [List.count_append] at once
    dsimp only
    -- the one visit is on one side, and the other side adds the same to both words
    by_cases here : names.count nested = 1
    · rw [sameBelow (by omega)]
      exact fun equal => differ here (BitVec.add_left_inj word' |>.mp equal)
    · rw [same (by omega)]
      exact fun equal => differBelow (by omega) (BitVec.add_right_inj sum' |>.mp equal)

private theorem Tells.rotate {nested : String} {names : List String} {sum sum' : HashWord}
    (kept : Tells nested (names, sum) sum') : Tells nested (names, sum.rotate) sum'.rotate :=
  ⟨fun absent => congrArg HashWord.rotate (kept.1 absent),
    fun once equal => kept.2 once (rotate_injective equal)⟩

/-- **A visit that is made once shows.** Two hashes from words that differ for one struct only
differ where the walk enters the struct once. -/
theorem walk_hash_ne {nested : String} {base changed : Struct → HashWord}
    (elsewhere : ∀ struct ∈ schema.structs, struct.name ≠ nested → base struct = changed struct)
    (differ : ∀ struct ∈ schema.structs, struct.name = nested → base struct ≠ changed struct)
    (listed : struct ∈ schema.structs) {names : List String}
    (entered : schema.entered struct path = .ok names) (once : names.count nested = 1)
    {word word' : HashWord} (hashed : schema.walk (.hash base) struct path = .ok word)
    (hashed' : schema.walk (.hash changed) struct path = .ok word') : word ≠ word' := by
  have related : Outcome.Related (Tells nested)
      (schema.walk (Reading.names.pair (.hash base)) struct path)
      (schema.walk (.hash changed) struct path) := by
    refine related_walk (.refl schema) ?_ Tells.add Tells.rotate listed
    intro struct listed
    by_cases here : struct.name = nested
    · refine ⟨fun absent => ?_, fun _ => differ struct listed here⟩
      have visited : [struct.name].count nested = 1 := by rw [here, List.count_singleton_self]
      exact absurd (visited.symm.trans absent) (by omega)
    · refine ⟨fun _ => elsewhere struct listed here, fun visited => ?_⟩
      have absent : [struct.name].count nested = 0 :=
        List.count_eq_zero_of_not_mem (by rwa [List.mem_singleton, eq_comm])
      exact absurd (absent.symm.trans visited) (by omega)
  rw [walk_pair listed entered hashed, hashed'] at related
  exact related.of_ok.2 once

/-- A struct with another base hash, where it has the name. -/
def rebased (name : String) (value : Int) (struct : Struct) : Struct :=
  if struct.name = name then { struct with baseHash := value } else struct

private theorem baseHash_rebased {name : String} {value : Int} (named : struct.name = name) :
    (rebased name value struct).baseHash = value := by
  rw [rebased, if_pos named]

private theorem rebased_of_ne {name : String} {value : Int} (other : struct.name ≠ name) :
    rebased name value struct = struct := if_neg other

private theorem find?_modifyFirst (name : String) (value : Int) (structs : List Struct)
    (type : String) :
    (Registry.modifyFirst name ({ · with baseHash := value }) structs).find? (·.name == type) =
      (structs.find? (·.name == type)).map (rebased name value) := by
  induction structs with
  | nil => rfl
  | cons struct structs ih =>
      rw [Registry.modifyFirst]
      by_cases here : struct.name = name
      · rw [if_pos here]
        by_cases asked : struct.name = type
        · rw [List.find?_cons_of_pos (by simpa using asked),
            List.find?_cons_of_pos (by simpa using asked), Option.map_some, rebased, if_pos here]
        · rw [List.find?_cons_of_neg (by simpa using asked),
            List.find?_cons_of_neg (by simpa using asked)]
          cases later : structs.find? (·.name == type) with
          | none => rfl
          | some found =>
              have named : found.name = type := by simpa using List.find?_some later
              rw [Option.map_some, rebased_of_ne]
              rw [named, ← here]
              exact Ne.symm asked
      · rw [if_neg here]
        by_cases asked : struct.name = type
        · rw [List.find?_cons_of_pos (by simpa using asked),
            List.find?_cons_of_pos (by simpa using asked), Option.map_some, rebased_of_ne here]
        · rw [List.find?_cons_of_neg (by simpa using asked),
            List.find?_cons_of_neg (by simpa using asked), ih]

private theorem matches_setBaseHash (registry : Registry) (name : String) (value : Int) :
    Matches (rebased name value) registry.schema (registry.setBaseHash name value).schema where
  name := fun struct => by unfold rebased; split <;> rfl
  dependencies := fun struct => by unfold rebased; split <;> rfl
  lookup? := find?_modifyFirst name value registry.schema.structs

/-- The hash after a change of a base hash is what a walk over the schema before it collects. -/
theorem structuralHash_setBaseHash {registry : Registry} (name : String) (value : Int)
    (found : registry.schema.lookup? struct.name = some struct) :
    (registry.setBaseHash name value).structuralHash struct.name path =
      registry.schema.walk (.hash fun struct => HashWord.ofInt (rebased name value struct).baseHash)
        struct path := by
  have alike := matches_setBaseHash registry name value
  have lookedUp : (registry.setBaseHash name value).lookup struct.name =
      .ok (rebased name value struct) := by
    rw [Registry.lookup_eq_ok_iff, alike.lookup?, found, Option.map_some]
  rw [Registry.structuralHash, lookedUp]
  dsimp only
  rw [structuralHash_eq_walk]
  exact (Outcome.eq_of_related (related_walk alike (fun _ _ => rfl)
    (fun same below => by rw [same, below]; rfl) (fun same => by rw [same]; rfl)
    (mem_of_lookup? found))).symm

/-- The base hashes of 64 bits. -/
def wordRange : Set Int := {value | 0 ≤ value ∧ value < 2 ^ 64}

private theorem ofInt_injOn : Set.InjOn HashWord.ofInt wordRange := by
  intro left inside right inside' same
  have numbers := congrArg BitVec.toNat same
  rw [HashWord.ofInt, HashWord.ofInt, BitVec.toNat_ofInt, BitVec.toNat_ofInt] at numbers
  obtain ⟨low, high⟩ := inside
  obtain ⟨low', high'⟩ := inside'
  omega

/-- **A change in a nested struct always shows.** Where the walk from a struct of a sound schema
enters a struct exactly once, which may be the one it starts from, its hash always exists as a
function of the base hash there, and takes no value twice over the base hashes of 64 bits. So
another base hash of 64 bits gives another hash than the one that the schema has. -/
theorem structuralHash_injOn_of_entered_once {schema : Schema} (valid : schema.validate = .ok ())
    {top nested : Struct} (listed : top ∈ schema.structs) (nestedListed : nested ∈ schema.structs)
    {names : List String} (entered : schema.entered top [] = .ok names)
    (once : names.count nested.name = 1) :
    let hash := fun value : Int =>
      (({ schema } : Registry).setBaseHash nested.name value).structuralHash top.name []
    (∀ value, ∃ word, hash value = .ok word) ∧ Set.InjOn hash wordRange ∧
      (nested.baseHash ∈ wordRange → ∀ value ∈ wordRange, value ≠ nested.baseHash →
        hash value ≠ schema.structuralHash top []) := by
  intro hash
  have distinct := (validate_eq_ok_iff.mp valid).1
  have unique : ∀ struct ∈ schema.structs, struct.name = nested.name → struct = nested :=
    fun struct member same => List.inj_on_of_nodup_map distinct member nestedListed same
  have walked : ∀ value, hash value =
      schema.walk (.hash fun struct => HashWord.ofInt (rebased nested.name value struct).baseHash)
        top [] :=
    fun value => structuralHash_setBaseHash nested.name value
      (find?_of_nodup Struct.name distinct listed)
  have differ : ∀ {base : Struct → HashWord} {value : Int} {word word' : HashWord},
      (∀ struct, struct.name ≠ nested.name → base struct = HashWord.ofInt struct.baseHash) →
      HashWord.ofInt value ≠ base nested → hash value = .ok word →
      schema.walk (.hash base) top [] = .ok word' → word ≠ word' := by
    intro base value word word' elsewhere other hashed hashed'
    rw [walked] at hashed
    refine walk_hash_ne ?_ ?_ listed entered once hashed hashed'
    · intro struct _ apart
      rw [elsewhere struct apart, rebased_of_ne apart]
    · intro struct member same
      rwa [baseHash_rebased same, unique struct member same]
  have exist : ∀ value, ∃ word, hash value = .ok word := by
    intro value
    rw [walked]
    exact exists_walk_eq_ok _ listed entered
  refine ⟨exist, ?_, ?_⟩
  · intro value inside value' inside' same
    by_contra changed
    obtain ⟨word, hashed⟩ := exist value
    have hashed' := same.symm.trans hashed
    rw [walked] at hashed'
    refine differ (fun struct apart => ?_) ?_ hashed hashed' rfl
    · rw [rebased_of_ne apart]
    · rw [baseHash_rebased rfl]
      exact fun words => changed (ofInt_injOn inside inside' words)
  · intro nestedInside value inside changed same
    obtain ⟨word, hashed⟩ := exist value
    have hashed' := same.symm.trans hashed
    rw [structuralHash_eq_walk] at hashed'
    refine differ (fun _ _ => rfl) ?_ hashed hashed' rfl
    exact fun words => changed (ofInt_injOn inside nestedInside words)

/-- A tree and its branches name each other; the leaf below the branches is entered once. -/
theorem structuralHash_injOn_of_entered_once_leaf :
    let leaf : Struct := ⟨"leaf", [], 7⟩
    let branch : Struct := ⟨"branch", [⟨"origin", .compound "tree", []⟩,
      ⟨"fork", .compound "branch", []⟩, ⟨"leaves", .compound "leaf", []⟩], 5⟩
    let tree : Struct := ⟨"tree", [⟨"trunk", .compound "branch", []⟩], 3⟩
    let schema : Schema := ⟨[tree, branch, leaf]⟩
    schema.validate = .ok () ∧ schema.entered tree [] = .ok ["tree", "branch", "leaf"] ∧
      (({ schema } : Registry).setBaseHash "leaf" 8).structuralHash "tree" [] ≠
        schema.structuralHash tree [] := by
  intro leaf branch tree schema
  have valid : schema.validate = .ok () := by decide +kernel
  have entered : schema.entered tree [] = .ok ["tree", "branch", "leaf"] := by decide +kernel
  have listed : leaf ∈ schema.structs :=
    List.mem_cons_of_mem _ (List.mem_cons_of_mem _ List.mem_cons_self)
  obtain ⟨-, -, changed⟩ :=
    structuralHash_injOn_of_entered_once valid List.mem_cons_self listed entered (by decide)
  exact ⟨valid, entered, changed ⟨by decide, by decide⟩ 8 ⟨by decide, by decide⟩ (by decide)⟩

end Schema

end Wireform
