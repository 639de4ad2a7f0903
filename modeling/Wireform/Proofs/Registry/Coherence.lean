import Wireform.Backend.MatlabFiles
import Wireform.Backend.PythonModule
import Wireform.Proofs.Schema.StructuralHash
import Wireform.Registry

/-! # What a registry remembers

A registry is asked for one thing after the other, and whatever fails leaves behind what was done
before the failure. All that is asked of a registry only ever adds to its cache
(`Wireform.Registry.extended_follow`). Structs are added at the end, so a hash that was found once
is found again (`Wireform.Schema.structuralHash_append`), and a fingerprint is only computed for the
first struct of its name. Hence every fingerprint in the cache stays the hash that would be computed
now (`Wireform.Registry.fingerprints_stay_current`).
-/

namespace Wireform

/-! ### Structs at the end of a schema -/

namespace Schema

variable {schema : Schema}

private theorem lookup?_append {name : String} {struct : Struct} (more : List Struct)
    (found : schema.lookup? name = some struct) :
    (schema.append more).lookup? name = some struct := by
  rw [lookup?, append, List.find?_append]
  rw [lookup?] at found
  rw [found, Option.some_or]

/-- A schema is found unchanged at the start of a longer one. -/
theorem embedding_append (more : List Struct) : Embedding id id schema (schema.append more) where
  injective := Function.injective_id
  name := fun _ _ => rfl
  baseHash := fun _ _ => rfl
  dependencies := fun struct _ => by rw [List.map_id, id]
  lookup? := fun found => lookup?_append more found

private theorem structuralHash_append {struct : Struct} {word : HashWord} (more : List Struct)
    (listed : struct ∈ schema.structs) (hashed : schema.structuralHash struct [] = .ok word) :
    (schema.append more).structuralHash struct [] = .ok word :=
  have walked : schema.structuralHash struct (pathOf []) = .ok word := hashed
  structuralHash_of_embedding (embedding_append more) listed walked

/-- The first struct of a name is the one that is looked up. -/
theorem lookup?_of_first {before after : List Struct} {struct : Struct}
    (whole : schema.structs = before ++ struct :: after)
    (first : ∀ earlier ∈ before, earlier.name ≠ struct.name) :
    schema.lookup? struct.name = some struct := by
  have none : before.find? (·.name == struct.name) = none := by
    rw [List.find?_eq_none]
    intro earlier listed
    simpa using first earlier listed
  rw [lookup?, whole, List.find?_append, none, Option.none_or, List.find?_cons_of_pos (by simp)]

end Schema

/-! ### Caches -/

/-- A cache of which every entry is the structural hash of the first struct of its name. -/
def Faithful (schema : Schema) (cache : FingerprintCache) : Prop :=
  ∀ entry ∈ cache, ∃ struct, schema.lookup? entry.1 = some struct ∧
    schema.structuralHash struct [] = .ok entry.2

private theorem faithful_nil (schema : Schema) : Faithful schema [] := by
  intro entry listed
  cases listed

private theorem lookup_of_extended {cache after : FingerprintCache} {name : String}
    {word : HashWord}
    (kept : cache <+: after) (found : cache.lookup name = some word) :
    after.lookup name = some word := by
  obtain ⟨added, rfl⟩ := kept
  rw [List.lookup_append, found, Option.some_or]

private theorem mem_of_lookup {cache : FingerprintCache} {name : String} {word : HashWord}
    (found : cache.lookup name = some word) : (name, word) ∈ cache := by
  obtain ⟨before, after, rfl, -⟩ := List.lookup_eq_some_iff.mp found
  exact List.mem_append_right _ List.mem_cons_self

section Requests

variable {schema : Schema} {cache : FingerprintCache}

private theorem Faithful.coherent (faithful : Faithful schema cache) : Coherent schema cache :=
  fun name word found => faithful (name, word) (mem_of_lookup found)

private theorem Faithful.append (faithful : Faithful schema cache) (more : List Struct) :
    Faithful (schema.append more) cache := by
  intro entry listed
  obtain ⟨struct, found, hashed⟩ := faithful entry listed
  exact ⟨struct, Schema.lookup?_append more found,
    Schema.structuralHash_append more (Schema.mem_of_lookup? found) hashed⟩

/-- What a request for a fingerprint does to the cache: nothing, or it adds the hash of a struct
whose name was not met before. -/
theorem snd_fingerprint_cases (cache : FingerprintCache) (schema : Schema) (struct : Struct) :
    (cache.fingerprint schema struct).2 = cache ∨
      ∃ word, cache.lookup struct.name = none ∧ schema.structuralHash struct [] = .ok word ∧
        (cache.fingerprint schema struct).2 = cache ++ [(struct.name, word)] := by
  unfold FingerprintCache.fingerprint
  cases remembered : cache.lookup struct.name with
  | some word => exact .inl rfl
  | none =>
      cases hashed : schema.structuralHash struct [] with
      | error fault => exact .inl rfl
      | ok word => exact .inr ⟨word, rfl, rfl, rfl⟩

private theorem extended_fingerprint (cache : FingerprintCache) (schema : Schema)
    (struct : Struct) :
    cache <+: (cache.fingerprint schema struct).2 := by
  rcases snd_fingerprint_cases cache schema struct with same | ⟨word, -, -, added⟩
  · exact same.symm ▸ List.prefix_refl cache
  · rw [added]
    exact List.prefix_append ..

/-- After a request that was answered, the name is in the cache. -/
theorem lookup_of_fingerprint {struct : Struct} {word : HashWord} {after : FingerprintCache}
    (answered : cache.fingerprint schema struct = (.ok word, after)) :
    after.lookup struct.name = some word := by
  unfold FingerprintCache.fingerprint at answered
  split at answered
  · next cached remembered =>
      obtain ⟨made, rfl⟩ := Prod.mk.inj answered
      rw [remembered, Except.ok.inj made]
  · next forgotten =>
      split at answered
      · cases answered
      · next computed hashed =>
          obtain ⟨made, rfl⟩ := Prod.mk.inj answered
          rw [List.lookup_append, forgotten, Option.none_or, List.lookup_cons_self,
            Except.ok.inj made]

/-- A request keeps a cache faithful, unless it computes the fingerprint of a struct that another
one of its name hides. -/
theorem Faithful.fingerprint (faithful : Faithful schema cache) {struct : Struct}
    (first : cache.lookup struct.name = none → schema.lookup? struct.name = some struct) :
    Faithful schema (cache.fingerprint schema struct).2 := by
  rcases snd_fingerprint_cases cache schema struct with same | ⟨word, forgotten, hashed, added⟩
  · rwa [same]
  · rw [added]
    intro entry listed
    rcases List.mem_append.mp listed with earlier | new
    · exact faithful entry earlier
    · obtain rfl := List.mem_singleton.mp new
      exact ⟨struct, first forgotten, hashed⟩

/-! ### Plans and generated code -/

private theorem TypePlan.snd_build (struct : Struct) :
    (TypePlan.build schema struct cache).2 = (cache.fingerprint schema struct).2 := by
  unfold TypePlan.build
  split
  · next fault after answered => rw [answered]
  · next word after answered =>
      rw [answered]
      split <;> rfl

/-- The cache after planning is the one after the struct at which planning stopped. -/
theorem Schema.snd_plansOf_cons (schema : Schema) (cache : FingerprintCache) (struct : Struct)
    (rest : List Struct) :
    (schema.plansOf (struct :: rest) cache).2 = (cache.fingerprint schema struct).2 ∨
      ∃ word after, cache.fingerprint schema struct = (.ok word, after) ∧
        (schema.plansOf (struct :: rest) cache).2 = (schema.plansOf rest after).2 := by
  rw [Schema.plansOf]
  split
  · next fault after built =>
      rw [← TypePlan.snd_build, built]
      exact .inl rfl
  · next plan after built =>
      obtain ⟨answered, -, -⟩ := TypePlan.build_eq_ok built
      refine .inr ⟨plan.fingerprint, after, answered, ?_⟩
      split
      · next fault final stopped => rw [stopped]
      · next plans final planned => rw [planned]

private theorem extended_plansOf (structs : List Struct) :
    cache <+: (schema.plansOf structs cache).2 := by
  induction structs generalizing cache with
  | nil => exact List.prefix_refl cache
  | cons struct rest ih =>
      rcases schema.snd_plansOf_cons cache struct rest with
        stopped | ⟨word, after, answered, further⟩
      · rw [stopped]
        exact extended_fingerprint cache schema struct
      · rw [further]
        have kept := extended_fingerprint cache schema struct
        rw [answered] at kept
        exact kept.trans ih

/-- Planning keeps a cache faithful: where it comes to a struct that another one of its name hides,
it has planned the other one, so the name is in the cache. -/
theorem Faithful.plansOf (faithful : Faithful schema cache) (before : List Struct)
    {structs : List Struct}
    (whole : schema.structs = before ++ structs)
    (planned : ∀ earlier ∈ before, ∃ word, cache.lookup earlier.name = some word) :
    Faithful schema (schema.plansOf structs cache).2 := by
  induction structs generalizing cache before with
  | nil => exact faithful
  | cons struct rest ih =>
      have first : cache.lookup struct.name = none →
          schema.lookup? struct.name = some struct := by
        intro forgotten
        refine Schema.lookup?_of_first whole ?_
        intro earlier listed same
        obtain ⟨word, remembered⟩ := planned earlier listed
        rw [same, forgotten] at remembered
        cases remembered
      have next := faithful.fingerprint first
      rcases schema.snd_plansOf_cons cache struct rest with
        stopped | ⟨word, after, answered, further⟩
      · rwa [stopped]
      · rw [further]
        have kept := extended_fingerprint cache schema struct
        rw [answered] at next kept
        refine ih next (before ++ [struct]) (by simpa using whole) ?_
        intro earlier listed
        rcases List.mem_append.mp listed with old | new
        · obtain ⟨word, remembered⟩ := planned earlier old
          exact ⟨word, lookup_of_extended kept remembered⟩
        · rw [List.mem_singleton.mp new]
          exact ⟨word, lookup_of_fingerprint answered⟩

private theorem Faithful.plans (faithful : Faithful schema cache) :
    Faithful schema (schema.plans cache).2 :=
  faithful.plansOf [] rfl (by simp)

private theorem snd_pythonModule (schema : Schema) (source : Option String)
    (cache : FingerprintCache) :
    (Backend.pythonModule schema source cache).2 = cache ∨
      (Backend.pythonModule schema source cache).2 = (schema.plans cache).2 := by
  unfold Backend.pythonModule
  split
  · exact .inl rfl
  · right
    split
    · next fault after stopped => rw [stopped]
    · next plans after planned =>
        rw [planned]
        split <;> rfl

private theorem snd_matlabFiles :
    (Backend.matlabFiles schema cache).2 = (schema.plans cache).2 := by
  unfold Backend.matlabFiles
  split
  · next fault after stopped => rw [stopped]
  · next plans after planned =>
      rw [planned]
      split <;> rfl

end Requests

/-! ### Sequences of operations -/

namespace Registry

/-- What is asked of a registry. -/
inductive Operation where
  | addText (text : String)
  | addStruct (struct : Struct)
  | validate
  | lookup (name : String)
  | fingerprint (name : String)
  | structuralHash (name : String) (path : List PathEntry)
  | plans
  | pythonModule (source : Option String)
  | matlabFiles
  deriving DecidableEq, Repr

/-- The registry after an operation, whether it failed or not. -/
def perform (registry : Registry) : Operation → Registry
  | .addText text =>
      match registry.addText text with
      | .error _ => registry
      | .ok (_, after) => after
  | .addStruct struct => registry.addStruct struct
  | .validate | .lookup _ | .structuralHash _ _ => registry
  | .fingerprint name => (registry.fingerprint name).2
  | .plans => registry.plans.2
  | .pythonModule source =>
      { registry with
        fingerprints :=
          (Backend.pythonModule registry.schema source registry.fingerprints).2 }
  | .matlabFiles =>
      { registry with
        fingerprints := (Backend.matlabFiles registry.schema registry.fingerprints).2 }

/-- What can befall a registry: an operation, or a change of a base hash in one of its structs. -/
inductive Event where
  | operation (operation : Operation)
  /-- The first struct of a name gets another base hash. -/
  | setBaseHash (name : String) (value : Int)
  /-- The struct at a position gets another base hash. -/
  | setBaseHashAt (position : Nat) (value : Int)
  deriving DecidableEq, Repr

/-- The registry after an event. -/
def follow (registry : Registry) : Event → Registry
  | .operation operation => registry.perform operation
  | .setBaseHash name value => registry.setBaseHash name value
  | .setBaseHashAt position value =>
      { registry with
        schema := ⟨registry.schema.structs.modify position ({ · with baseHash := value })⟩ }

/-- The registry after some operations, from an empty one. -/
def afterOperations (operations : List Operation) : Registry := operations.foldl perform {}

/-- The registry after some events, from an empty one. -/
def afterEvents (events : List Event) : Registry := events.foldl follow {}

variable {registry : Registry}

/-- An operation keeps what is remembered, and only adds to it. -/
theorem extended_perform (operation : Operation) :
    registry.fingerprints <+: (registry.perform operation).fingerprints := by
  cases operation with
  | addText text =>
      rw [perform, addText]
      cases Source.structs text <;> exact List.prefix_refl _
  | addStruct | validate | lookup | structuralHash => exact List.prefix_refl _
  | fingerprint name =>
      rw [perform, Registry.fingerprint]
      cases registry.lookup name with
      | error fault => exact List.prefix_refl _
      | ok struct => exact extended_fingerprint registry.fingerprints registry.schema struct
  | plans => exact extended_plansOf registry.schema.structs
  | pythonModule source =>
      rw [perform]
      rcases snd_pythonModule registry.schema source registry.fingerprints with same | planned
      · exact same.symm ▸ List.prefix_refl _
      · rw [planned]
        exact extended_plansOf registry.schema.structs
  | matlabFiles =>
      rw [perform, snd_matlabFiles]
      exact extended_plansOf registry.schema.structs

private theorem extended_follow (event : Event) :
    registry.fingerprints <+: (registry.follow event).fingerprints := by
  cases event with
  | operation operation => exact extended_perform operation
  | setBaseHash | setBaseHashAt => exact List.prefix_refl _

private theorem extended_foldl_follow (events : List Event) :
    registry.fingerprints <+: (events.foldl follow registry).fingerprints := by
  induction events generalizing registry with
  | nil => exact List.prefix_refl _
  | cons event events ih => exact (extended_follow event).trans ih

/-- A registry knows the structs of its schema. -/
theorem lookup_eq_ok_iff {name : String} {struct : Struct} :
    registry.lookup name = .ok struct ↔ registry.schema.lookup? name = some struct := by
  unfold Registry.lookup
  cases registry.schema.lookup? name <;> simp

/-- An operation keeps a cache faithful. -/
theorem faithful_perform (faithful : Faithful registry.schema registry.fingerprints)
    (operation : Operation) :
    Faithful (registry.perform operation).schema (registry.perform operation).fingerprints := by
  cases operation with
  | addText text =>
      rw [perform, addText]
      cases Source.structs text with
      | error fault => exact faithful
      | ok structs => exact faithful.append structs
  | addStruct struct => exact faithful.append [struct]
  | validate | lookup | structuralHash => exact faithful
  | fingerprint name =>
      rw [perform, Registry.fingerprint]
      cases found : registry.lookup name with
      | error fault => exact faithful
      | ok struct =>
          have listed := lookup_eq_ok_iff.mp found
          refine faithful.fingerprint fun _ => ?_
          rwa [Schema.name_of_lookup? listed]
  | plans => exact faithful.plans
  | pythonModule source =>
      rw [perform]
      rcases snd_pythonModule registry.schema source registry.fingerprints with same | planned
      · rwa [same]
      · rw [planned]
        exact faithful.plans
  | matlabFiles =>
      rw [perform, snd_matlabFiles]
      exact faithful.plans

private theorem faithful_foldl_perform (registry : Registry)
    (faithful : Faithful registry.schema registry.fingerprints) (operations : List Operation) :
    Faithful (operations.foldl perform registry).schema
      (operations.foldl perform registry).fingerprints := by
  induction operations generalizing registry with
  | nil => exact faithful
  | cons operation operations ih => exact ih _ (faithful_perform faithful operation)

/-- A faithful cache answers with the hash that would be computed, and fails where it would. -/
theorem fst_fingerprint_of_faithful (faithful : Faithful registry.schema registry.fingerprints)
    (name : String) : (registry.fingerprint name).1 = registry.structuralHash name [] := by
  rw [Registry.fingerprint, Registry.structuralHash]
  cases found : registry.lookup name with
  | error fault => rfl
  | ok struct =>
      have listed := lookup_eq_ok_iff.mp found
      rw [← Schema.name_of_lookup? listed] at listed
      cases hashed : registry.schema.structuralHash struct [] with
      | ok word =>
          exact (fingerprint_of_coherent listed faithful.coherent hashed).trans hashed.symm
      | error fault =>
          -- a remembered word would be the hash of this very struct
          have forgotten : registry.fingerprints.lookup struct.name = none := by
            refine Option.eq_none_iff_forall_ne_some.mpr fun word remembered => ?_
            obtain ⟨known, again, same⟩ := faithful.coherent struct.name word remembered
            obtain rfl := Option.some.inj (listed.symm.trans again)
            rw [hashed] at same
            cases same
          simp only [FingerprintCache.fingerprint, forgotten, hashed]

/-- **Remembered fingerprints stay current.** After any operations on an empty registry, failed ones
included, each entry of the cache is the hash that the first struct of its name has now, and a
request for a fingerprint is answered as if nothing were remembered. An entry is never changed or
removed, not even where base hashes change as well. -/
theorem fingerprints_stay_current :
    (∀ operations : List Operation,
      (∀ name word, (name, word) ∈ (afterOperations operations).fingerprints →
        ∃ struct, (afterOperations operations).lookup name = .ok struct ∧
          (afterOperations operations).schema.structuralHash struct [] = .ok word) ∧
      ∀ name, ((afterOperations operations).fingerprint name).1 =
        (afterOperations operations).structuralHash name []) ∧
    ∀ (events later : List Event) (name : String) (word : HashWord),
      (afterEvents events).fingerprints.lookup name = some word →
        (afterEvents (events ++ later)).fingerprints.lookup name = some word := by
  refine ⟨fun operations => ?_, fun events later name word found => ?_⟩
  · have faithful := faithful_foldl_perform {} (faithful_nil {}) operations
    refine ⟨fun name word listed => ?_, fst_fingerprint_of_faithful faithful⟩
    obtain ⟨struct, found, hashed⟩ := faithful (name, word) listed
    exact ⟨struct, lookup_eq_ok_iff.mpr found, hashed⟩
  · rw [afterEvents, List.foldl_append]
    exact lookup_of_extended (extended_foldl_follow later) found

/-- A tree is asked for before its branches are known, which fails, and again afterwards. Then
another tree comes that the first one hides, and all is planned. In the end the branches get another
base hash, and the fingerprint of the tree stays what it was. -/
theorem fingerprints_stay_current_tree :
    ∃ word struct,
      let tree : Struct := ⟨"tree", [⟨"b", .compound "branch", []⟩], 5⟩
      let operations := [.addStruct tree, .fingerprint "tree",
        .addText "struct branch \x7b tree t; \x7d", .fingerprint "tree",
        .addStruct { tree with baseHash := 7 }, .plans]
      (afterOperations operations).fingerprints.map (·.1) = ["tree", "branch"] ∧
      ("tree", word) ∈ (afterOperations operations).fingerprints ∧
      (afterOperations operations).lookup "tree" = .ok struct ∧
      (afterOperations operations).schema.structuralHash struct [] = .ok word ∧
      (afterEvents (operations.map .operation ++ [.setBaseHash "branch" 0])).fingerprints.lookup
        "tree" = some word := by
  let tree : Struct := ⟨"tree", [⟨"b", .compound "branch", []⟩], 5⟩
  let operations : List Operation := [.addStruct tree, .fingerprint "tree",
    .addText "struct branch \x7b tree t; \x7d", .fingerprint "tree",
    .addStruct { tree with baseHash := 7 }, .plans]
  have names : (afterOperations operations).fingerprints.map (·.1) = ["tree", "branch"] := by
    decide +kernel
  have same : afterEvents (operations.map .operation) = afterOperations operations := by
    rw [afterEvents, List.foldl_map]
    rfl
  obtain ⟨word, remembered⟩ :
      ∃ word, (afterOperations operations).fingerprints.lookup "tree" = some word :=
    Option.isSome_iff_exists.mp (by decide +kernel)
  have listed := mem_of_lookup remembered
  obtain ⟨current, stays⟩ := fingerprints_stay_current
  obtain ⟨struct, found, hashed⟩ := (current operations).1 "tree" word listed
  exact ⟨word, struct, names, listed, found, hashed,
    stays _ [.setBaseHash "branch" 0] "tree" word (same ▸ remembered)⟩

end Registry

end Wireform
