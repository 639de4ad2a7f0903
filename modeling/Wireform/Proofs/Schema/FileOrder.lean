import Wireform.Proofs.Schema.Validity
import Wireform.Proofs.Source.Names

/-! # Reading files in another order, or beside further files

The structs of a schema are those of its files, one file after the other
(`Wireform.Schema.gather_eq_ok_iff`). Another order of the files gives the same structs in another
order, which are as sound as before; further files add structs whose names differ from all others.
Lookups find the same structs either way, so a schema is found again unchanged among the structs of
further files (`Wireform.Schema.embedding_of_subset`), and what its structs mean stays
(`Wireform.fingerprints_of_further_texts`).
-/

namespace Wireform

namespace Schema

variable {texts others : List String} {schema other : Schema}

/-! ### The same files in another order -/

private theorem validate_of_perm (perm : schema.structs.Perm other.structs)
    (valid : schema.validate = .ok ()) : other.validate = .ok () := by
  obtain ⟨distinct, sound⟩ := validate_eq_ok_iff.mp valid
  have names : schema.names.Perm other.names := perm.map _
  refine validate_eq_ok_iff.mpr ⟨names.nodup_iff.mp distinct, ?_⟩
  intro struct listed
  exact (sound struct (perm.mem_iff.mpr listed)).mono names.subset

private theorem exists_ofTexts_of_perm (perm : texts.Perm others)
    (read : ofTexts texts = .ok schema) :
    ∃ other, ofTexts others = .ok other := by
  obtain ⟨gathered, valid⟩ := ofTexts_eq_ok_iff.mp read
  obtain ⟨files, readAll, structs⟩ := gather_eq_ok_iff.mp gathered
  obtain ⟨found, readAgain, same⟩ := Outcome.exists_mapM_of_perm perm readAll
  refine ⟨⟨found.flatten⟩, ofTexts_eq_ok_iff.mpr ⟨?_, ?_⟩⟩
  · exact gather_eq_ok_iff.mpr ⟨found, readAgain, rfl⟩
  · refine validate_of_perm ?_ valid
    rw [structs]
    exact same.flatten

/-! ### Further files -/

private theorem subset_of_gather (subset : texts ⊆ others) (gathered : gather texts = .ok schema)
    (gatheredAll : gather others = .ok other) : schema.structs ⊆ other.structs := by
  obtain ⟨files, readAll, structs⟩ := gather_eq_ok_iff.mp gathered
  obtain ⟨found, readOthers, otherStructs⟩ := gather_eq_ok_iff.mp gatheredAll
  rw [structs, otherStructs]
  intro struct listed
  obtain ⟨file, present, inside⟩ := List.mem_flatten.mp listed
  obtain ⟨text, among, read⟩ := Outcome.exists_of_mem_mapM readAll present
  obtain ⟨again, presentAgain, readAgain⟩ := Outcome.mem_of_mapM readOthers (subset among)
  obtain rfl := Except.ok.inj (read.symm.trans readAgain)
  exact List.mem_flatten.mpr ⟨file, presentAgain, inside⟩

/-- A schema is found unchanged inside one that has all its structs, and no other of their names. -/
theorem embedding_of_subset (subset : schema.structs ⊆ other.structs)
    (distinct : other.names.Nodup) : Embedding id id schema other where
  injective := Function.injective_id
  name := fun _ _ => rfl
  baseHash := fun _ _ => rfl
  dependencies := fun _ _ => (List.map_id _).symm
  lookup? := by
    intro name struct found
    have search := find?_of_nodup Struct.name distinct (subset (mem_of_lookup? found))
    rw [name_of_lookup? found] at search
    exact search

end Schema

/-! ### What is known of a struct -/

/-- Two schemas give a name to the same struct, and the struct the same fingerprint and the same
plan. Their caches may be empty, or hold whatever was asked for before. -/
structure Schema.AgreeOn (schema other : Schema) (struct : Struct) (word : HashWord) : Prop where
  lookup? : schema.lookup? struct.name = some struct ∧ other.lookup? struct.name = some struct
  structuralHash :
    schema.structuralHash struct [] = .ok word ∧ other.structuralHash struct [] = .ok word
  fingerprint : ∀ {known recalled : FingerprintCache}, Coherent schema known →
    Coherent other recalled →
      (known.fingerprint schema struct).1 = .ok word ∧
      (recalled.fingerprint other struct).1 = .ok word
  build : ∀ {known recalled : FingerprintCache}, Coherent schema known →
    Coherent other recalled →
      (TypePlan.build schema struct known).1 = (TypePlan.build other struct recalled).1
  plans : ∀ {known recalled after afterAll : FingerprintCache} {plans plansAll : List TypePlan},
    Coherent schema known → Coherent other recalled →
    schema.plans known = (.ok plans, after) → other.plans recalled = (.ok plansAll, afterAll) →
      ∃ plan, plan.struct = struct ∧
        plans.find? (·.struct.name == struct.name) = some plan ∧
        plansAll.find? (·.struct.name == struct.name) = some plan

/-- What is planned for a struct depends on the schema through the fingerprint alone. -/
theorem TypePlan.build_congr {schema other : Schema} {struct : Struct}
    {known recalled : FingerprintCache}
    (same : (known.fingerprint schema struct).1 = (recalled.fingerprint other struct).1) :
    (build schema struct known).1 = (build other struct recalled).1 := by
  unfold build
  generalize known.fingerprint schema struct = left at same ⊢
  generalize recalled.fingerprint other struct = right at same ⊢
  obtain ⟨answer, after⟩ := left
  obtain ⟨again, afterAll⟩ := right
  obtain rfl : answer = again := same
  cases answer with
  | error fault => rfl
  | ok word =>
      dsimp only
      cases SizePlan.ofStruct struct <;> rfl

/-- The plan of a struct is found by its name. -/
theorem exists_find?_plans {schema : Schema} {cache after : FingerprintCache}
    {plans : List TypePlan} (distinct : schema.names.Nodup)
    (planned : schema.plans cache = (.ok plans, after)) {struct : Struct}
    (listed : struct ∈ schema.structs) :
    ∃ plan ∈ plans, plan.struct = struct ∧
      plans.find? (·.struct.name == struct.name) = some plan := by
  rw [← Schema.struct_of_plans planned] at listed
  obtain ⟨plan, present, rfl⟩ := List.mem_map.mp listed
  have names := Schema.map_names_of_plans planned id
  rw [List.map_id] at names
  rw [names] at distinct
  have search := find?_of_nodup (fun plan : TypePlan => plan.struct.name) distinct present
  exact ⟨plan, present, rfl, search⟩

private theorem Schema.agreeOn_of_subset {schema other : Schema} (closed : schema.Closed)
    (distinct : schema.names.Nodup) (distinctAll : other.names.Nodup)
    (subset : schema.structs ⊆ other.structs) {struct : Struct}
    (listed : struct ∈ schema.structs) : ∃ word, schema.AgreeOn other struct word := by
  obtain ⟨word, hashed⟩ := exists_structuralHash closed listed (pathOf [])
  have embedding := embedding_of_subset subset distinctAll
  have hashedAll : other.structuralHash struct [] = .ok word :=
    structuralHash_of_embedding embedding listed hashed
  have found := find?_of_nodup Struct.name distinct listed
  have foundAll := find?_of_nodup Struct.name distinctAll (subset listed)
  have build : ∀ {known recalled : FingerprintCache}, Coherent schema known →
      Coherent other recalled →
        (TypePlan.build schema struct known).1 = (TypePlan.build other struct recalled).1 := by
    intro known recalled coherent coherentAll
    apply TypePlan.build_congr
    rw [fingerprint_of_coherent found coherent hashed,
      fingerprint_of_coherent foundAll coherentAll hashedAll]
  refine ⟨word, ⟨found, foundAll⟩, ⟨hashed, hashedAll⟩, ?_, build, ?_⟩
  · intro known recalled coherent coherentAll
    exact ⟨fingerprint_of_coherent found coherent hashed,
      fingerprint_of_coherent foundAll coherentAll hashedAll⟩
  · intro known recalled after afterAll plans plansAll coherent coherentAll planned plannedAll
    obtain ⟨plan, present, owner, search⟩ := exists_find?_plans distinct planned listed
    obtain ⟨other, presentAll, ownerAll, searchAll⟩ :=
      exists_find?_plans distinctAll plannedAll (subset listed)
    obtain ⟨before, between, kept, built⟩ :=
      exists_build_of_plans distinct coherent planned plan present
    obtain ⟨beforeAll, betweenAll, keptAll, builtAll⟩ :=
      exists_build_of_plans distinctAll coherentAll plannedAll other presentAll
    -- both plans were built for the struct, from caches that answer alike
    have same := build kept keptAll
    rw [owner] at built
    rw [ownerAll] at builtAll
    rw [built, builtAll] at same
    obtain rfl := Except.ok.inj same
    exact ⟨plan, owner, search, searchAll⟩

/-- **Fingerprints depend neither on the order of files nor on further files.** Files that give a
schema give one in every order. Where some files give a schema, and files that hold them in any
order beside further ones give another, the two schemas agree on every struct of the first. -/
theorem fingerprints_of_further_texts :
    (∀ texts others : List String, texts.Perm others →
      ((∃ schema, Schema.ofTexts texts = .ok schema) ↔
        ∃ schema, Schema.ofTexts others = .ok schema)) ∧
    ∀ (texts further others : List String) (schema other : Schema),
      others.Perm (texts ++ further) → Schema.ofTexts texts = .ok schema →
      Schema.ofTexts others = .ok other →
        ∀ struct ∈ schema.structs, ∃ word, schema.AgreeOn other struct word := by
  constructor
  · intro texts others perm
    constructor
    · rintro ⟨schema, read⟩
      exact Schema.exists_ofTexts_of_perm perm read
    · rintro ⟨schema, read⟩
      exact Schema.exists_ofTexts_of_perm perm.symm read
  · intro texts further others schema other perm read readAll struct listed
    obtain ⟨gathered, valid⟩ := Schema.ofTexts_eq_ok_iff.mp read
    obtain ⟨gatheredAll, validAll⟩ := Schema.ofTexts_eq_ok_iff.mp readAll
    have held : texts ⊆ others := fun text present =>
      perm.mem_iff.mpr (List.mem_append_left further present)
    exact Schema.agreeOn_of_subset (Schema.closed_of_validate valid)
      (Schema.validate_eq_ok_iff.mp valid).1 (Schema.validate_eq_ok_iff.mp validAll).1
      (Schema.subset_of_gather held gathered gatheredAll) listed

/-- A tree and its branches name each other, in two files. A file of leaves comes before them, and
the branches before the tree. -/
theorem fingerprints_of_further_texts_tree :
    ∃ schema other,
      Schema.ofTexts ["struct tree \x7b branch b; \x7d", "struct branch \x7b tree t; \x7d"] =
        .ok schema ∧
      Schema.ofTexts ["struct leaf \x7b byte a; \x7d", "struct branch \x7b tree t; \x7d",
        "struct tree \x7b branch b; \x7d"] = .ok other ∧
      schema.names = ["tree", "branch"] ∧
      ∀ struct ∈ schema.structs, ∃ word, schema.AgreeOn other struct word := by
  have names : (Schema.ofTexts
      ["struct tree \x7b branch b; \x7d", "struct branch \x7b tree t; \x7d"]).map Schema.names =
        .ok ["tree", "branch"] := by decide +kernel
  have complete : (Schema.ofTexts ["struct tree \x7b branch b; \x7d",
      "struct branch \x7b tree t; \x7d", "struct leaf \x7b byte a; \x7d"]).isOk = true := by
    decide +kernel
  cases read : Schema.ofTexts
      ["struct tree \x7b branch b; \x7d", "struct branch \x7b tree t; \x7d"] with
  | error fault =>
      rw [read] at names
      cases names
  | ok schema =>
      rw [read] at names
      obtain ⟨succeeds, agrees⟩ := fingerprints_of_further_texts
      have perm : List.Perm ["struct leaf \x7b byte a; \x7d", "struct branch \x7b tree t; \x7d",
          "struct tree \x7b branch b; \x7d"] (["struct tree \x7b branch b; \x7d",
          "struct branch \x7b tree t; \x7d"] ++ ["struct leaf \x7b byte a; \x7d"]) := by
        decide +kernel
      obtain ⟨other, readAll⟩ :=
        (succeeds _ _ perm).mpr (Outcome.exists_of_isOk complete)
      exact ⟨schema, other, rfl, readAll, Except.ok.inj names,
        agrees _ _ _ schema other perm read readAll⟩

end Wireform
