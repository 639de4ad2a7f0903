import Wireform.Plan.Type
import Wireform.Proofs.Outcome

/-! # What plans hold

Planning a schema gives one plan for each struct, in order (`Wireform.Schema.struct_of_plans`), and
each plan holds the size plan, the codec plans and the dependencies of its struct and the
fingerprint that the cache answered for it (`Wireform.TypePlan.build_eq_ok`). What one step of
planning keeps, planning keeps (`Wireform.Schema.forall_of_plansOf`).
-/

namespace Wireform

/-- A struct depends on the types of its members only. -/
theorem Struct.exists_of_mem_dependencies {struct : Struct} {type : String}
    (present : type ∈ struct.dependencies) :
    ∃ member ∈ struct.members, member.type = .compound type := by
  obtain ⟨member, listed, found⟩ := List.mem_filterMap.mp present
  refine ⟨member, listed, ?_⟩
  split at found
  · cases found
  · next known => rw [known, Option.some.inj found]

/-- A plan that belongs to its struct. The fingerprint is left open. -/
structure TypePlan.OfStruct (plan : TypePlan) : Prop where
  dependencies : plan.dependencies = plan.struct.dependencies
  size : SizePlan.ofStruct plan.struct = .ok plan.size
  encode : plan.encode = .ofStruct .encode plan.struct
  decode : plan.decode = .ofStruct .decode plan.struct

/-- What is known of a plan that was built. -/
theorem TypePlan.build_eq_ok {schema : Schema} {struct : Struct} {cache after : FingerprintCache}
    {plan : TypePlan} (run : build schema struct cache = (.ok plan, after)) :
    cache.fingerprint schema struct = (.ok plan.fingerprint, after) ∧
      plan.struct = struct ∧ plan.OfStruct := by
  unfold build at run
  split at run
  · cases run
  · next fingerprint left answered =>
      split at run
      · cases run
      · next size sized =>
          obtain ⟨made, rfl⟩ := Prod.mk.inj run
          obtain rfl := Except.ok.inj made
          exact ⟨answered, rfl, ⟨rfl, sized, rfl, rfl⟩⟩

/-- Each term of a size plan is that of a member. -/
theorem SizePlan.exists_of_mem_ofStruct {struct : Struct} {plan : SizePlan}
    (planned : SizePlan.ofStruct struct = .ok plan) {term : SizeTerm} (member : term ∈ plan.terms) :
    ∃ owner ∈ struct.members, SizeTerm.ofMember owner = .ok term := by
  obtain ⟨terms, found, rfl⟩ := Outcome.returning_eq_ok.mp planned
  exact Outcome.exists_of_mem_mapM found member

/-- The term of a member is for that member, and is summed over its dimensions. -/
theorem SizeTerm.ofMember_eq_ok {member : Member} {term : SizeTerm}
    (found : SizeTerm.ofMember member = .ok term) :
    (∃ width extents, member.type.width? = some width ∧
      member.dimensions.all (·.isConstant) = true ∧
      member.dimensions.mapM Dimension.extent = .ok extents ∧
      term = .constant member width extents) ∨
    (term = .perElement member member.dimensions member.type.width? ∧
      (member.type.width? = none ∨ member.dimensions.all (·.isConstant) = false)) := by
  unfold SizeTerm.ofMember at found
  split at found
  · next width fixed =>
      split at found
      · next constant =>
          obtain ⟨extents, read, rfl⟩ := Outcome.returning_eq_ok.mp found
          exact .inl ⟨width, extents, fixed, constant, read, rfl⟩
      · next dynamic =>
          obtain rfl := Outcome.pure_eq_ok.mp found
          exact .inr ⟨by rw [fixed], .inr (Bool.eq_false_iff.mpr dynamic)⟩
  · next varying =>
      obtain rfl := Outcome.pure_eq_ok.mp found
      exact .inr ⟨by rw [varying], .inl varying⟩

/-- The term of a member is about that member. -/
theorem SizeTerm.member_of_ofMember {member : Member} {term : SizeTerm}
    (found : SizeTerm.ofMember member = .ok term) : term.member = member := by
  rcases SizeTerm.ofMember_eq_ok found with ⟨width, extents, -, -, -, rfl⟩ | ⟨rfl, -⟩ <;> rfl

namespace Schema

variable {schema : Schema} {structs : List Struct} {cache after : FingerprintCache}
  {plans : List TypePlan}

private theorem plansOf_cons_eq_ok {struct : Struct}
    (run : schema.plansOf (struct :: structs) cache = (.ok plans, after)) :
    ∃ plan others between, plans = plan :: others ∧
      TypePlan.build schema struct cache = (.ok plan, between) ∧
      schema.plansOf structs between = (.ok others, after) := by
  unfold plansOf at run
  split at run
  · cases run
  · next plan between built =>
      split at run
      · cases run
      · next others final rest =>
          obtain ⟨made, rfl⟩ := Prod.mk.inj run
          exact ⟨plan, others, between, (Except.ok.inj made).symm, built, rest⟩

/-- **Planning keeps what its steps keep.** What holds of the cache before each struct is planned,
and of each plan, holds of them all. -/
theorem forall_of_plansOf (kept : FingerprintCache → Prop) {fits : TypePlan → Prop}
    (step : ∀ struct ∈ structs, ∀ before plan between, kept before →
      TypePlan.build schema struct before = (.ok plan, between) → kept between ∧ fits plan)
    (start : kept cache) (run : schema.plansOf structs cache = (.ok plans, after)) :
    kept after ∧ ∀ plan ∈ plans, fits plan := by
  induction structs generalizing cache plans with
  | nil =>
      obtain ⟨made, rfl⟩ := Prod.mk.inj run
      obtain rfl := Except.ok.inj made
      exact ⟨start, by simp⟩
  | cons struct structs ih =>
      obtain ⟨plan, others, between, rfl, built, rest⟩ := plansOf_cons_eq_ok run
      obtain ⟨keptBetween, fitsPlan⟩ := step struct List.mem_cons_self _ _ _ start built
      obtain ⟨keptAfter, fitsOthers⟩ :=
        ih (fun later member => step later (List.mem_cons_of_mem _ member)) keptBetween rest
      refine ⟨keptAfter, ?_⟩
      intro candidate member
      rcases List.mem_cons.mp member with rfl | later
      · exact fitsPlan
      · exact fitsOthers candidate later

private theorem struct_of_plansOf (run : schema.plansOf structs cache = (.ok plans, after)) :
    plans.map (·.struct) = structs := by
  induction structs generalizing cache plans with
  | nil =>
      obtain ⟨made, -⟩ := Prod.mk.inj run
      obtain rfl := Except.ok.inj made
      rfl
  | cons struct structs ih =>
      obtain ⟨plan, others, between, rfl, built, rest⟩ := plansOf_cons_eq_ok run
      obtain ⟨-, same, -⟩ := TypePlan.build_eq_ok built
      rw [List.map_cons, same, ih rest]

/-- A schema has one plan for each struct, in order. -/
theorem struct_of_plans (run : schema.plans cache = (.ok plans, after)) :
    plans.map (·.struct) = schema.structs :=
  struct_of_plansOf run

/-- The plans of a schema are about its structs, in their order. -/
theorem map_names_of_plans (run : schema.plans cache = (.ok plans, after))
    (name : String → String) :
    schema.names.map name = plans.map (name ·.struct.name) := by
  rw [names, ← struct_of_plans run, List.map_map, List.map_map]
  rfl

/-- Each plan of a schema is built from its struct. -/
theorem ofStruct_of_plans (run : schema.plans cache = (.ok plans, after)) :
    ∀ plan ∈ plans, plan.OfStruct := by
  refine (forall_of_plansOf (fun _ => True) ?_ trivial run).2
  intro struct _ before plan between _ built
  exact ⟨trivial, (TypePlan.build_eq_ok built).2.2⟩

end Schema

end Wireform
