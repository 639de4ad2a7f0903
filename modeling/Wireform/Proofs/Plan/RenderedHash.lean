import Wireform.Backend.Layout
import Wireform.Proofs.Schema.StructuralHash
import Wireform.Proofs.Source.Names

/-! # Fingerprints computed by generated code

Generated code computes a fingerprint from the plans alone, by a recursion that finds the plan of a
dependency by its flat name and works with natural numbers (`Wireform.Backend.renderedHash`). For a
schema that was read from files and whose flat names differ, this recursion ends at a depth of at
most the number of plans, finds every plan that it asks for, and gives the fingerprint that was
planned, which is the structural hash of the struct
(`Wireform.Backend.renderedHash_eq_fingerprint`).
-/

namespace Wireform.Backend

/-- The greatest 64-bit number. -/
def mask64 : Nat := 0xffffffffffffffff

/-- One step of the sum that generated code computes, with a function for the hash of a plan below a
path. -/
def addRecord (plans : List TypePlan) (hash : TypePlan → List PathEntry → Option Nat)
    (below : List PathEntry) (sum : Nat) (dependency : String) : Option Nat :=
  if below.contains (pathEntry dependency) then some sum
  else do
    let record ← plans.find? (flatName ·.struct.name == flatName dependency)
    return (sum + (← hash record below)) &&& mask64

/-- The fingerprint that generated code computes for a plan below a path. The recursion need not end
by itself, so its depth is bounded; there is no result where the bound is reached, a dependency has
no plan, or the base hash has no numeral. -/
def renderedHash (plans : List TypePlan) : Nat → TypePlan → List PathEntry → Option Nat
  | 0, _, _ => none
  | depth + 1, plan, path => do
      let below := path ++ [pathEntry plan.struct.name]
      let base ← if 0 ≤ plan.struct.baseHash then some plan.struct.baseHash.toNat else none
      let sum ← plan.dependencies.foldlM (addRecord plans (renderedHash plans depth) below) base
      return ((sum <<< 1) &&& mask64) ||| (sum >>> 63)

/-! ### Words as natural numbers -/

private theorem and_mask64 (value : Nat) : value &&& mask64 = (BitVec.ofNat 64 value).toNat := by
  rw [BitVec.toNat_ofNat]
  exact Nat.and_two_pow_sub_one_eq_mod value 64

private theorem toNat_add_word (first second : HashWord) :
    (first + second).toNat = (first.toNat + second.toNat) &&& mask64 := by
  rw [and_mask64, BitVec.toNat_ofNat, BitVec.toNat_add]

private theorem toNat_rotate (word : HashWord) :
    word.rotate.toNat = ((word.toNat <<< 1) &&& mask64) ||| (word.toNat >>> 63) := by
  rw [and_mask64, BitVec.toNat_ofNat, HashWord.rotate, BitVec.rotateLeft_def, BitVec.toNat_or,
    BitVec.toNat_shiftLeft, BitVec.toNat_ushiftRight]

private theorem renderedHash_succ {plans : List TypePlan} {plan : TypePlan} {word : HashWord}
    (base : plan.struct.baseHash = word.toNat) (depth : Nat) (path : List PathEntry) :
    renderedHash plans (depth + 1) plan path = (do
      let sum ← plan.dependencies.foldlM
        (addRecord plans (renderedHash plans depth) (path ++ [pathEntry plan.struct.name]))
        word.toNat
      return ((sum <<< 1) &&& mask64) ||| (sum >>> 63)) := by
  have natural : (0 : Int) ≤ plan.struct.baseHash := base ▸ Int.natCast_nonneg _
  rw [renderedHash, if_pos natural, base, Int.toNat_natCast]
  rfl

/-! ### Records -/

/-- The plans of a schema whose flat names differ and whose base hashes are words. -/
structure Records (schema : Schema) (plans : List TypePlan) : Prop where
  structs : plans.map (·.struct) = schema.structs
  distinct : (plans.map (flatName ·.struct.name)).Nodup
  dependencies : ∀ plan ∈ plans, plan.dependencies = plan.struct.dependencies
  base : ∀ plan ∈ plans, ∃ word : HashWord, plan.struct.baseHash = word.toNat

variable {schema : Schema} {plans : List TypePlan}

/-- The struct that a name stands for has a plan, which is found by the flat name. -/
theorem Records.find? (records : Records schema plans) {type : String} {child : Struct}
    (found : schema.lookup? type = some child) :
    ∃ record ∈ plans, record.struct = child ∧
      plans.find? (flatName ·.struct.name == flatName type) = some record := by
  have listed := Schema.mem_of_lookup? found
  rw [← records.structs] at listed
  obtain ⟨record, member, rfl⟩ := List.mem_map.mp listed
  refine ⟨record, member, rfl, ?_⟩
  rw [← Schema.name_of_lookup? found]
  have search := find?_of_nodup (fun plan : TypePlan => flatName plan.struct.name)
    records.distinct member
  exact search

/-- **The sums agree step by step.** Each dependency is left out by both, or adds the same word. -/
theorem foldlM_addRecord {hash : TypePlan → List PathEntry → Option Nat} {below : List PathEntry}
    (each : ∀ type child word, below.contains (pathEntry type) = false →
      schema.lookup? type = some child → schema.structuralHash child below = .ok word →
      ∃ record, plans.find? (flatName ·.struct.name == flatName type) = some record ∧
        hash record below = some word.toNat)
    {types : List String} {sum total : HashWord}
    (summed : types.foldlM (schema.addDependency below) sum = .ok total) :
    types.foldlM (addRecord plans hash below) sum.toNat = some total.toNat := by
  induction types generalizing sum with
  | nil =>
      obtain rfl := Outcome.pure_eq_ok.mp summed
      rfl
  | cons type types ih =>
      rw [List.foldlM_cons] at summed ⊢
      obtain ⟨next, added, rest⟩ := Outcome.bind_eq_ok.mp summed
      have step : addRecord plans hash below sum.toNat type = some next.toNat := by
        unfold addRecord
        rcases Schema.addDependency_eq_ok_iff.mp added with
          ⟨onPath, rfl⟩ | ⟨offPath, child, word, found, hashed, rfl⟩
        · rw [if_pos onPath]
        · obtain ⟨record, recorded, rendered⟩ := each type child word offPath found hashed
          rw [if_neg (Bool.eq_false_iff.mp offPath), recorded, toNat_add_word]
          simp only [Option.bind_eq_bind, Option.bind_some, rendered]
          rfl
      rw [step]
      exact ih rest

/-- **Generated code computes the structural hash.** Where the hash of a struct below a path is
known, the recursion over the plans gives the same number, and goes no deeper than there are structs
off the path. -/
theorem renderedHash_of_structuralHash (records : Records schema plans) {plan : TypePlan}
    (member : plan ∈ plans) {path : List PathEntry} {word : HashWord}
    (hashed : schema.structuralHash plan.struct path = .ok word) {depth : Nat}
    (deep : (schema.offPath (path ++ [pathEntry plan.struct.name])).length < depth) :
    renderedHash plans depth plan path = some word.toNat := by
  induction depth generalizing plan path word with
  | zero => exact absurd deep (Nat.not_lt_zero _)
  | succ depth ih =>
      obtain ⟨base, isWord⟩ := records.base plan member
      rw [Schema.structuralHash_eq_foldlM] at hashed
      obtain ⟨total, summed, rfl⟩ := Outcome.returning_eq_ok.mp hashed
      have start : HashWord.ofInt plan.struct.baseHash = base := by
        rw [isWord, HashWord.ofInt, BitVec.ofInt_natCast, BitVec.ofNat_toNat, BitVec.setWidth_eq]
      rw [start] at summed
      have each : ∀ type child word,
          (path ++ [pathEntry plan.struct.name]).contains (pathEntry type) = false →
          schema.lookup? type = some child →
          schema.structuralHash child (path ++ [pathEntry plan.struct.name]) = .ok word →
          ∃ record, plans.find? (flatName ·.struct.name == flatName type) = some record ∧
            renderedHash plans depth record (path ++ [pathEntry plan.struct.name]) =
              some word.toNat := by
        intro type child word offPath found below
        obtain ⟨record, inside, rfl, recorded⟩ := records.find? found
        -- one more struct is on the path below the dependency
        have shorter := Schema.length_offPath_lt found offPath
        exact ⟨record, recorded, ih inside below (by omega)⟩
      rw [renderedHash_succ isWord, records.dependencies plan member,
        foldlM_addRecord each summed, toNat_rotate]
      rfl

/-- A struct that is on the path leaves fewer structs off the path than there are plans. -/
theorem Records.length_offPath_lt (records : Records schema plans) {plan : TypePlan}
    (member : plan ∈ plans) :
    (schema.offPath [pathEntry plan.struct.name]).length < plans.length := by
  have listed : plan.struct ∈ schema.structs := records.structs ▸ List.mem_map_of_mem member
  have count : plans.length = schema.structs.length := by
    rw [← records.structs, List.length_map]
  rw [count]
  refine List.length_filter_lt_length_iff_exists.mpr ⟨plan.struct, listed, ?_⟩
  simp

/-- **Generated code computes the planned fingerprints.** The plans of a schema belong to its
structs, in order. For each of them the recursion over the plans ends, no deeper than there are
plans, and finds every plan that it asks for; its result is the planned fingerprint, which is the
structural hash of the struct. -/
theorem renderedHash_eq_fingerprint {texts : List String} {after : FingerprintCache}
    (read : Schema.ofTexts texts = .ok schema) (distinct : (schema.names.map flatName).Nodup)
    (planned : schema.plans [] = (.ok plans, after)) :
    plans.map (·.struct) = schema.structs ∧
      ∀ plan ∈ plans,
        (∀ depth, plans.length ≤ depth →
          renderedHash plans depth plan [] = some plan.fingerprint.toNat) ∧
        schema.structuralHash plan.struct [] = .ok plan.fingerprint := by
  have structs := Schema.struct_of_plans planned
  have names := Schema.map_names_of_plans planned flatName
  have records : Records schema plans := by
    refine ⟨structs, names ▸ distinct, ?_, ?_⟩
    · intro plan member
      exact (Schema.ofStruct_of_plans planned plan member).dependencies
    · intro plan member
      have listed : plan.struct ∈ schema.structs := structs ▸ List.mem_map_of_mem member
      exact ⟨_, (Schema.readFrom_of_ofTexts read plan.struct listed).baseHash⟩
  refine ⟨structs, ?_⟩
  intro plan member
  have hashed := structuralHash_of_plans distinct.of_map planned plan member
  refine ⟨?_, hashed⟩
  intro depth enough
  have shallow := records.length_offPath_lt member
  exact renderedHash_of_structuralHash records member hashed (Nat.lt_of_lt_of_le shallow enough)

/-- A tree and its branches name each other, and both name leaves. The recursion over their plans
leaves out what is on its path, and ends with the planned fingerprints. -/
theorem renderedHash_eq_fingerprint_tree :
    ∃ schema plans after,
      Schema.ofTexts ["package wood; struct tree \x7b branch trunk; leaf top; \x7d",
        "package wood; struct branch \x7b tree origin; leaf leaves[2]; \x7d",
        "package wood; struct leaf \x7b double area; \x7d"] = .ok schema ∧
      schema.plans [] = (.ok plans, after) ∧
      plans.map (renderedHash plans 3 · []) =
        [some 0xc29fe0f1ba48bd6c, some 0x7f62ba5e7b4637b9, some 0x21dd4103b55d9e15] := by
  let schema : Schema := ⟨[
    ⟨"wood.tree", [⟨"trunk", .compound "wood.branch", []⟩, ⟨"top", .compound "wood.leaf", []⟩],
      10579990111436952811⟩,
    ⟨"wood.branch", [⟨"origin", .compound "wood.tree", []⟩,
      ⟨"leaves", .compound "wood.leaf", [.constant "2"]⟩], 3779153668572026822⟩,
    ⟨"wood.leaf", [⟨"area", .primitive .double, []⟩], 10443461065498873610⟩]⟩
  have read : Schema.ofTexts ["package wood; struct tree \x7b branch trunk; leaf top; \x7d",
      "package wood; struct branch \x7b tree origin; leaf leaves[2]; \x7d",
      "package wood; struct leaf \x7b double area; \x7d"] = .ok schema := by decide +kernel
  have words : (schema.plans []).1.map (·.map (·.fingerprint.toNat)) =
      .ok [0xc29fe0f1ba48bd6c, 0x7f62ba5e7b4637b9, 0x21dd4103b55d9e15] := by decide +kernel
  cases made : (schema.plans []).1 with
  | error fault =>
      rw [made] at words
      cases words
  | ok plans =>
      rw [made] at words
      have planned : schema.plans [] = (.ok plans, (schema.plans []).2) := Prod.ext made rfl
      obtain ⟨-, agrees⟩ := renderedHash_eq_fingerprint read (by decide +kernel) planned
      have values : plans.map (·.fingerprint.toNat) =
          [0xc29fe0f1ba48bd6c, 0x7f62ba5e7b4637b9, 0x21dd4103b55d9e15] := Except.ok.inj words
      have count : plans.length = 3 := by simpa using congrArg List.length values
      have rendered : plans.map (renderedHash plans 3 · []) =
          (plans.map (·.fingerprint.toNat)).map some := by
        rw [List.map_map]
        exact List.map_congr_left fun plan member => (agrees plan member).1 3 (by omega)
      refine ⟨schema, plans, _, read, planned, ?_⟩
      rw [rendered, values]
      rfl

end Wireform.Backend
