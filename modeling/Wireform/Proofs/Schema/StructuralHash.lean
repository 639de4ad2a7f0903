import Mathlib.Data.List.Nodup
import Wireform.Proofs.Plan.Build

/-! # Structural hashes

The structural hash of a struct sums over its dependencies
(`Wireform.Schema.structuralHash_eq_foldlM`), and exists where they are all defined
(`Wireform.Schema.exists_structuralHash`). Where a schema is found again inside another one, under
names that tell its types apart as well, the walk from a struct goes the same way in both and gives
the same word (`Wireform.Schema.structuralHash_of_embedding`).

A cache that remembers structural hashes only answers with the structural hash
(`Wireform.fingerprint_of_coherent`) and stays so (`Wireform.coherent_fingerprint`), so the
fingerprints of plans are structural hashes (`Wireform.structuralHash_of_plans`).
-/

namespace Wireform

/-- An entry is found by its key where keys differ. -/
theorem find?_of_nodup {α : Type} (key : α → String) {entries : List α} {entry : α}
    (distinct : (entries.map key).Nodup) (member : entry ∈ entries) :
    entries.find? (key · == key entry) = some entry := by
  cases search : entries.find? (key · == key entry) with
  | none =>
      have missed := List.find?_eq_none.mp search entry member
      simp at missed
  | some other =>
      have same : key other = key entry := by simpa using List.find?_some search
      have inside := List.mem_of_find?_eq_some search
      rw [List.inj_on_of_nodup_map distinct inside member same]

namespace Schema

/-- One step of the sum of a structural hash. -/
def addDependency (schema : Schema) (below : List PathEntry) (sum : HashWord) (type : String) :
    Except UnknownType HashWord :=
  if below.contains (pathEntry type) then pure sum
  else match schema.lookup? type with
    | none => throw ⟨type⟩
    | some child => do return sum + (← schema.structuralHash child below)

/-- The structural hash sums over the dependencies of a struct. -/
theorem structuralHash_eq_foldlM (schema : Schema) (struct : Struct) (path : List PathEntry) :
    schema.structuralHash struct path = (do
      let sum ← struct.dependencies.foldlM
        (schema.addDependency (path ++ [pathEntry struct.name])) (HashWord.ofInt struct.baseHash)
      return sum.rotate) := by
  rw [structuralHash, Struct.dependencies, List.foldlM_filterMap]
  congr 2
  funext sum member
  cases member.type with
  | primitive p => rfl
  | compound type =>
      dsimp only [addDependency]
      split
      · rfl
      · split
        · next missing => rw [missing]
        · next child found => rw [found]

section Steps

variable {schema : Schema} {below : List PathEntry} {sum : HashWord} {type : String}

/-- A step leaves out what is on the path, and adds the hash of what is not. -/
theorem addDependency_eq_ok_iff {next : HashWord} :
    schema.addDependency below sum type = .ok next ↔
      below.contains (pathEntry type) = true ∧ next = sum ∨
        below.contains (pathEntry type) = false ∧ ∃ child word,
          schema.lookup? type = some child ∧ schema.structuralHash child below = .ok word ∧
            next = sum + word := by
  unfold addDependency
  cases below.contains (pathEntry type) with
  | true => simpa using Outcome.pure_eq_ok.trans eq_comm
  | false =>
      cases schema.lookup? type with
      | none => simp [throw, throwThe, MonadExceptOf.throw]
      | some child => simpa using Outcome.returning_eq_ok

/-- A step fails where the type is undefined, or where its hash fails below the path. -/
theorem addDependency_eq_error_iff {fault : UnknownType} :
    schema.addDependency below sum type = .error fault ↔
      below.contains (pathEntry type) = false ∧
        (schema.lookup? type = none ∧ fault = ⟨type⟩ ∨ ∃ child,
          schema.lookup? type = some child ∧ schema.structuralHash child below = .error fault) := by
  unfold addDependency
  cases below.contains (pathEntry type) with
  | true => simp [pure, Except.pure]
  | false =>
      cases schema.lookup? type with
      | none => simp [throw, throwThe, MonadExceptOf.throw, eq_comm]
      | some child => simp [Outcome.bind_eq_error, pure, Except.pure]

end Steps

private theorem exists_lookup? {schema : Schema} {name : String} (listed : name ∈ schema.names) :
    ∃ struct, schema.lookup? name = some struct := by
  obtain ⟨struct, member, same⟩ := List.mem_map.mp listed
  have found : (schema.lookup? name).isSome = true := by
    rw [lookup?_isSome_iff, contains, List.any_eq_true]
    exact ⟨struct, member, beq_iff_eq.mpr same⟩
  exact Option.isSome_iff_exists.mp found

/-- A schema that defines every type on which its structs depend. -/
def Closed (schema : Schema) : Prop :=
  ∀ struct ∈ schema.structs, ∀ type ∈ struct.dependencies, type ∈ schema.names

/-- The structs of a closed schema have hashes below every path. -/
theorem exists_structuralHash {schema : Schema} (closed : schema.Closed) {struct : Struct}
    (listed : struct ∈ schema.structs) (path : List PathEntry) :
    ∃ word, schema.structuralHash struct path = .ok word := by
  -- each step down puts one more struct on the path
  induction count : (schema.offPath (path ++ [pathEntry struct.name])).length
      using Nat.strongRecOn generalizing struct path with
  | ind count ih =>
    rw [structuralHash_eq_foldlM]
    obtain ⟨sum, added⟩ : ∃ sum, struct.dependencies.foldlM
        (schema.addDependency (path ++ [pathEntry struct.name])) (HashWord.ofInt struct.baseHash) =
          .ok sum := by
      apply Outcome.exists_foldlM_eq_ok
      intro type dependency sum
      simp only [addDependency_eq_ok_iff]
      cases place : (path ++ [pathEntry struct.name]).contains (pathEntry type) with
      | true => exact ⟨sum, .inl ⟨rfl, rfl⟩⟩
      | false =>
          obtain ⟨child, found⟩ := exists_lookup? (closed struct listed type dependency)
          have shorter := length_offPath_lt found place
          obtain ⟨word, hashed⟩ := ih _ (count ▸ shorter) (mem_of_lookup? found) _ rfl
          exact ⟨sum + word, .inr ⟨rfl, child, word, found, hashed, rfl⟩⟩
    exact ⟨sum.rotate, Outcome.returning_eq_ok.mpr ⟨sum, added, rfl⟩⟩

/-! ### The same walk in another schema -/

/-- A schema found again inside another one: the names change in a way that keeps them apart, and
each struct keeps its base hash and the order of its dependencies. -/
structure Embedding (rename : String → String) (image : Struct → Struct) (schema other : Schema) :
    Prop where
  injective : Function.Injective rename
  name : ∀ struct ∈ schema.structs, (image struct).name = rename struct.name
  baseHash : ∀ struct ∈ schema.structs,
    HashWord.ofInt (image struct).baseHash = HashWord.ofInt struct.baseHash
  dependencies : ∀ struct ∈ schema.structs,
    (image struct).dependencies = struct.dependencies.map rename
  lookup? : ∀ {name : String} {struct : Struct}, schema.lookup? name = some struct →
    other.lookup? (rename name) = some (image struct)

/-- The path through some types. -/
def pathOf (names : List String) : List PathEntry := names.map pathEntry

/-- A path grows by one entry at its end. -/
theorem pathOf_concat (names : List String) (name : String) :
    pathOf names ++ [pathEntry name] = pathOf (names ++ [name]) := by
  simp [pathOf]

/-- A path contains an entry exactly where it contains the name. -/
theorem contains_pathOf (names : List String) (name : String) :
    (pathOf names).contains (pathEntry name) = names.contains name := by
  rw [Bool.eq_iff_iff, List.contains_iff_mem, List.contains_iff_mem, pathOf, List.mem_map]
  constructor
  · rintro ⟨found, member, same⟩
    obtain rfl : found = name := congrArg Prod.snd same
    exact member
  · exact fun member => ⟨name, member, rfl⟩

private theorem contains_map_of_injective {rename : String → String}
    (injective : Function.Injective rename)
    (names : List String) (name : String) :
    (names.map rename).contains (rename name) = names.contains name := by
  rw [Bool.eq_iff_iff, List.contains_iff_mem, List.contains_iff_mem, List.mem_map]
  constructor
  · rintro ⟨found, member, same⟩
    exact injective same ▸ member
  · exact fun member => ⟨name, member, rfl⟩

/-- **The walk goes the same way.** What is left out, looked up and added is the same at each step,
under the other names. -/
theorem structuralHash_of_embedding {rename : String → String} {image : Struct → Struct}
    {schema other : Schema} (embedding : Embedding rename image schema other) {struct : Struct}
    (listed : struct ∈ schema.structs) {names : List String} {word : HashWord}
    (hashed : schema.structuralHash struct (pathOf names) = .ok word) :
    other.structuralHash (image struct) (pathOf (names.map rename)) = .ok word := by
  induction count : (schema.offPath (pathOf names ++ [pathEntry struct.name])).length
      using Nat.strongRecOn generalizing struct names word with
  | ind count ih =>
    rw [structuralHash_eq_foldlM] at hashed ⊢
    obtain ⟨sum, added, turned⟩ := Outcome.bind_eq_ok.mp hashed
    rw [embedding.dependencies struct listed, embedding.baseHash struct listed,
      embedding.name struct listed]
    refine Outcome.bind_eq_ok.mpr ⟨sum, Outcome.foldlM_map_eq_ok ?_ added, turned⟩
    intro type _ before after step
    have below : pathOf (names.map rename) ++ [pathEntry (rename struct.name)] =
        pathOf ((names ++ [struct.name]).map rename) := by
      rw [pathOf_concat, List.map_append]
      rfl
    rw [addDependency_eq_ok_iff] at step ⊢
    rw [below, contains_pathOf, contains_map_of_injective embedding.injective, ← contains_pathOf,
      ← pathOf_concat]
    rcases step with onPath | ⟨offPath, child, added, found, hashedChild, rfl⟩
    · exact .inl onPath
    · have shorter := length_offPath_lt found offPath
      rw [count, pathOf_concat] at shorter
      rw [pathOf_concat] at hashedChild
      have again := ih _ shorter (mem_of_lookup? found) hashedChild rfl
      exact .inr ⟨offPath, image child, added, embedding.lookup? found, again, rfl⟩

end Schema

/-! ### Remembered hashes -/

variable {schema : Schema}

/-- A cache that remembers structural hashes only. -/
def Coherent (schema : Schema) (cache : FingerprintCache) : Prop :=
  ∀ name word, cache.lookup name = some word →
    ∃ struct, schema.lookup? name = some struct ∧ schema.structuralHash struct [] = .ok word

private theorem coherent_nil (schema : Schema) : Coherent schema [] := by
  intro name word found
  cases found

/-- A coherent cache answers with the structural hash. -/
theorem fingerprint_of_coherent {struct : Struct} {cache : FingerprintCache} {word : HashWord}
    (listed : schema.lookup? struct.name = some struct) (coherent : Coherent schema cache)
    (hashed : schema.structuralHash struct [] = .ok word) :
    (cache.fingerprint schema struct).1 = .ok word := by
  unfold FingerprintCache.fingerprint
  cases remembered : cache.lookup struct.name with
  | none => rw [hashed]
  | some cached =>
      obtain ⟨known, found, same⟩ := coherent struct.name cached remembered
      obtain rfl := Option.some.inj (listed.symm.trans found)
      rw [← hashed, same]

/-- A request keeps the cache coherent, and is answered by the structural hash. -/
theorem coherent_fingerprint {struct : Struct} {cache after : FingerprintCache} {word : HashWord}
    (listed : schema.lookup? struct.name = some struct) (coherent : Coherent schema cache)
    (answered : cache.fingerprint schema struct = (.ok word, after)) :
    Coherent schema after ∧ schema.structuralHash struct [] = .ok word := by
  unfold FingerprintCache.fingerprint at answered
  split at answered
  · next cached remembered =>
      obtain ⟨made, rfl⟩ := Prod.mk.inj answered
      obtain rfl := Except.ok.inj made
      obtain ⟨known, found, hashed⟩ := coherent struct.name cached remembered
      obtain rfl := Option.some.inj (listed.symm.trans found)
      exact ⟨coherent, hashed⟩
  · next forgotten =>
      split at answered
      · cases answered
      · next computed hashed =>
          obtain ⟨made, rfl⟩ := Prod.mk.inj answered
          obtain rfl := Except.ok.inj made
          refine ⟨?_, hashed⟩
          intro name word found
          rw [List.lookup_append] at found
          cases earlier : cache.lookup name with
          | some old =>
              rw [earlier] at found
              obtain rfl := Option.some.inj found
              exact coherent name old earlier
          | none =>
              rw [earlier, Option.none_or] at found
              by_cases same : name = struct.name
              · rw [same, List.lookup_cons_self] at found
                rw [same, ← Option.some.inj found]
                exact ⟨struct, listed, hashed⟩
              · rw [List.lookup_cons, beq_false_of_ne same] at found
                cases found

/-- Each plan of a schema was built from a coherent cache, where planning starts from one. -/
theorem exists_build_of_plans {cache after : FingerprintCache} {plans : List TypePlan}
    (distinct : schema.names.Nodup) (coherent : Coherent schema cache)
    (planned : schema.plans cache = (.ok plans, after)) :
    ∀ plan ∈ plans, ∃ before between, Coherent schema before ∧
      TypePlan.build schema plan.struct before = (.ok plan, between) := by
  refine (Schema.forall_of_plansOf (Coherent schema) ?_ coherent planned).2
  intro struct listed before plan between kept built
  obtain ⟨answered, rfl, -⟩ := TypePlan.build_eq_ok built
  have found := find?_of_nodup Struct.name distinct listed
  exact ⟨(coherent_fingerprint found kept answered).1, before, between, kept, built⟩

/-- The fingerprints of the plans of a schema are structural hashes. -/
theorem structuralHash_of_plans {after : FingerprintCache} {plans : List TypePlan}
    (distinct : schema.names.Nodup) (planned : schema.plans [] = (.ok plans, after)) :
    ∀ plan ∈ plans, schema.structuralHash plan.struct [] = .ok plan.fingerprint := by
  intro plan member
  obtain ⟨before, between, kept, built⟩ :=
    exists_build_of_plans distinct (coherent_nil schema) planned plan member
  obtain ⟨answered, -, -⟩ := TypePlan.build_eq_ok built
  have listed : plan.struct ∈ schema.structs :=
    Schema.struct_of_plans planned ▸ List.mem_map_of_mem member
  exact (coherent_fingerprint (find?_of_nodup Struct.name distinct listed) kept answered).2

end Wireform
