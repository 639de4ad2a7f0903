import Mathlib.Data.List.Forall2

/-! # Outcomes of computations that may fail

A computation in steps succeeds exactly when its steps do (`Wireform.Outcome.bind_eq_ok`), and so
does a computation for each entry of a list (`Wireform.Outcome.mapM_eq_ok`). Where it fails,
one of the steps does (`Wireform.Outcome.bind_eq_error`,
`Wireform.Outcome.exists_of_mapM_eq_error`). So the faults of a whole computation are those of its
steps (`Wireform.Outcome.FailsWithin.bind`).
-/

namespace Wireform.Outcome

variable {Fault α β : Type}

/-- A run in two parts succeeds when its parts do. -/
theorem bind_eq_ok {first : Except Fault α} {second : α → Except Fault β} {result : β} :
    first >>= second = .ok result ↔ ∃ value, first = .ok value ∧ second value = .ok result := by
  cases first with
  | error fault =>
      constructor
      · intro run
        cases run
      · rintro ⟨value, run, -⟩
        cases run
  | ok value =>
      constructor
      · intro run
        exact ⟨value, rfl, run⟩
      · rintro ⟨found, run, rest⟩
        obtain rfl := Except.ok.inj run
        exact rest

/-- It succeeds where the first part does and the second always does. -/
theorem exists_bind_eq_ok {first : Except Fault α} {second : α → Except Fault β}
    (left : ∃ value, first = .ok value) (right : ∀ value, ∃ result, second value = .ok result) :
    ∃ result, first >>= second = .ok result := by
  obtain ⟨value, run⟩ := left
  obtain ⟨result, rest⟩ := right value
  exact ⟨result, bind_eq_ok.mpr ⟨value, run, rest⟩⟩

/-- A run that only returns a value succeeds with it. -/
theorem pure_eq_ok {value result : α} :
    (pure value : Except Fault α) = .ok result ↔ value = result :=
  ⟨Except.ok.inj, congrArg Except.ok⟩

/-- A computation that ends by returning what it makes of the result of the one before. -/
theorem returning_eq_ok {first : Except Fault α} {made : α → β} {result : β} :
    (first >>= fun value => pure (made value)) = .ok result ↔
      ∃ value, first = .ok value ∧ result = made value :=
  bind_eq_ok.trans (exists_congr fun _ => and_congr_right' (pure_eq_ok.trans eq_comm))

/-! ### Whether a computation succeeds -/

/-- Whether a run in two parts succeeds is asked of its parts in turn. -/
theorem exists_bind_iff {first : Except Fault α} {second : α → Except Fault β} :
    (∃ result, first >>= second = .ok result) ↔
      ∃ value, first = .ok value ∧ ∃ result, second value = .ok result := by
  simp only [bind_eq_ok]
  rw [exists_comm]
  simp only [exists_and_left]

/-- A last part that only returns cannot fail. -/
theorem exists_returning_iff {first : Except Fault α} {made : α → β} :
    (∃ result, (first >>= fun value => pure (made value)) = .ok result) ↔
      ∃ value, first = .ok value :=
  exists_bind_iff.trans (exists_congr fun value => and_iff_left ⟨made value, rfl⟩)

/-- A computation that returns what it makes of two results succeeds when it has both. -/
theorem exists_both_iff {γ : Type} {first : Except Fault α} {second : Except Fault β}
    {made : α → β → γ} :
    (∃ result, (first >>= fun value => second >>= fun other => pure (made value other)) =
        .ok result) ↔
      (∃ value, first = .ok value) ∧ ∃ other, second = .ok other :=
  exists_bind_iff.trans
    ((exists_congr fun _ => and_congr_right' exists_returning_iff).trans exists_and_right)

/-! ### Faults -/

/-- A run in two parts fails in its first part, or in the second after it. -/
theorem bind_eq_error {first : Except Fault α} {second : α → Except Fault β} {fault : Fault} :
    first >>= second = .error fault ↔
      first = .error fault ∨ ∃ value, first = .ok value ∧ second value = .error fault := by
  cases first with
  | error found =>
      constructor
      · intro run
        exact .inl (congrArg Except.error (Except.error.inj run))
      · rintro (run | ⟨value, run, -⟩)
        · exact congrArg Except.error (Except.error.inj run)
        · cases run
  | ok value =>
      constructor
      · intro run
        exact .inr ⟨value, rfl, run⟩
      · rintro (run | ⟨found, run, rest⟩)
        · cases run
        · obtain rfl := Except.ok.inj run
          exact rest

/-- Naming faults otherwise changes no result. -/
theorem mapError_eq_ok {Other : Type} {asOther : Fault → Other} {run : Except Fault α}
    {result : α} : run.mapError asOther = .ok result ↔ run = .ok result := by
  cases run with
  | error fault => exact iff_of_false nofun nofun
  | ok value => exact ⟨fun same => congrArg Except.ok (Except.ok.inj same),
      fun same => congrArg Except.ok (Except.ok.inj same)⟩

/-- A fault that is named otherwise comes from a fault. -/
theorem mapError_eq_error {Other : Type} {asOther : Fault → Other} {run : Except Fault α}
    {other : Other} :
    run.mapError asOther = .error other ↔ ∃ fault, run = .error fault ∧ asOther fault = other := by
  cases run with
  | error fault =>
      constructor
      · intro same
        exact ⟨fault, rfl, Except.error.inj same⟩
      · rintro ⟨found, same, rfl⟩
        exact congrArg (fun fault => Except.error (asOther fault)) (Except.error.inj same)
  | ok value => exact iff_of_false nofun fun ⟨_, same, _⟩ => nomatch same

/-- A computation for each entry succeeds with one result for each. -/
theorem mapM_eq_ok {step : α → Except Fault β} {entries : List α} {results : List β} :
    entries.mapM step = .ok results ↔
      List.Forall₂ (fun entry result => step entry = .ok result) entries results := by
  induction entries generalizing results with
  | nil => rw [List.mapM_nil, pure_eq_ok, List.forall₂_nil_left_iff, eq_comm]
  | cons entry entries ih =>
      simp only [List.mapM_cons, bind_eq_ok, pure_eq_ok, List.forall₂_cons_left_iff, ih]
      constructor
      · rintro ⟨first, run, rest, others, rfl⟩
        exact ⟨first, rest, run, others, rfl⟩
      · rintro ⟨first, rest, run, others, rfl⟩
        exact ⟨first, run, rest, others, rfl⟩

/-- No entries give no results. -/
theorem mapM_nil_eq_ok {step : α → Except Fault β} {results : List β} :
    [].mapM step = .ok results ↔ results = [] :=
  mapM_eq_ok.trans List.forall₂_nil_left_iff

/-- The first entry gives the first result, and the others the others. -/
theorem mapM_cons_eq_ok {step : α → Except Fault β} {entry : α} {entries : List α}
    {results : List β} :
    (entry :: entries).mapM step = .ok results ↔
      ∃ first rest, step entry = .ok first ∧ entries.mapM step = .ok rest ∧
        results = first :: rest := by
  simp only [mapM_eq_ok, List.forall₂_cons_left_iff]

/-- Steps that agree on the entries agree on the list. -/
theorem mapM_congr {step other : α → Except Fault β} {entries : List α}
    (same : ∀ entry ∈ entries, step entry = other entry) :
    entries.mapM step = entries.mapM other := by
  induction entries with
  | nil => rfl
  | cons entry entries ih =>
      rw [List.mapM_cons, List.mapM_cons, same entry List.mem_cons_self,
        ih fun later member => same later (List.mem_cons_of_mem _ member)]

/-- Naming faults otherwise changes no success. -/
theorem exists_mapError_iff {Other : Type} {asOther : Fault → Other} {run : Except Fault α} :
    (∃ result, run.mapError asOther = .ok result) ↔ ∃ result, run = .ok result :=
  exists_congr fun _ => mapError_eq_ok

/-- Naming the faults of each step otherwise changes no results. -/
theorem mapM_mapError_eq_ok {Other : Type} {asOther : Fault → Other} {step : α → Except Fault β}
    {entries : List α} {results : List β} :
    (entries.mapM fun entry => (step entry).mapError asOther) = .ok results ↔
      entries.mapM step = .ok results := by
  simp only [mapM_eq_ok, mapError_eq_ok]

/-- A list succeeds where each entry does. -/
theorem exists_mapM_eq_ok {step : α → Except Fault β} {entries : List α}
    (each : ∀ entry ∈ entries, ∃ result, step entry = .ok result) :
    ∃ results, entries.mapM step = .ok results := by
  induction entries with
  | nil => exact ⟨[], rfl⟩
  | cons entry entries ih =>
      obtain ⟨first, head⟩ := each entry List.mem_cons_self
      obtain ⟨rest, tail⟩ := ih fun later member => each later (List.mem_cons_of_mem _ member)
      exact ⟨first :: rest, mapM_cons_eq_ok.mpr ⟨first, rest, head, tail, rfl⟩⟩

/-- A fault of a list is one of an entry. -/
theorem exists_of_mapM_eq_error {step : α → Except Fault β} {entries : List α} {fault : Fault}
    (run : entries.mapM step = .error fault) : ∃ entry ∈ entries, step entry = .error fault := by
  induction entries with
  | nil => cases run
  | cons entry entries ih =>
      rw [List.mapM_cons] at run
      rcases bind_eq_error.mp run with first | ⟨_, _, later⟩
      · exact ⟨entry, List.mem_cons_self, first⟩
      · rcases bind_eq_error.mp later with rest | ⟨_, _, none⟩
        · obtain ⟨found, member, failed⟩ := ih rest
          exact ⟨found, List.mem_cons_of_mem _ member, failed⟩
        · cases none

/-- The results of two lists in a row are those of each. -/
theorem mapM_append_eq_ok {step : α → Except Fault β} {first second : List α} {results : List β} :
    (first ++ second).mapM step = .ok results ↔
      ∃ left right, first.mapM step = .ok left ∧ second.mapM step = .ok right ∧
        results = left ++ right := by
  simp only [List.mapM_append, bind_eq_ok, pure_eq_ok]
  constructor
  · rintro ⟨left, run, right, others, rfl⟩
    exact ⟨left, right, run, others, rfl⟩
  · rintro ⟨left, right, run, others, rfl⟩
    exact ⟨left, run, right, others, rfl⟩

/-- What holds of each entry and its result holds of the entries and the results. -/
theorem forall₂_of_mapM {step : α → Except Fault β} {entries : List α} {results : List β}
    {relation : α → β → Prop}
    (each : ∀ entry ∈ entries, ∀ result, step entry = .ok result → relation entry result)
    (run : entries.mapM step = .ok results) : List.Forall₂ relation entries results :=
  ((List.forall₂_and_left _ _).mpr ⟨each, mapM_eq_ok.mp run⟩).imp
    fun _ _ ⟨fits, made⟩ => fits _ made

/-- Each result is that of an entry. -/
theorem exists_of_mem_mapM {step : α → Except Fault β} {entries : List α} {results : List β}
    (run : entries.mapM step = .ok results) {result : β} (member : result ∈ results) :
    ∃ entry ∈ entries, step entry = .ok result := by
  obtain ⟨length, each⟩ := List.forall₂_iff_get.mp (mapM_eq_ok.mp run)
  obtain ⟨i, inside, rfl⟩ := List.getElem_of_mem member
  exact ⟨entries[i], List.getElem_mem _, each i (length ▸ inside) inside⟩

/-- Each entry has its result. -/
theorem mem_of_mapM {step : α → Except Fault β} {entries : List α} {results : List β}
    (run : entries.mapM step = .ok results) {entry : α} (member : entry ∈ entries) :
    ∃ result ∈ results, step entry = .ok result := by
  obtain ⟨length, each⟩ := List.forall₂_iff_get.mp (mapM_eq_ok.mp run)
  obtain ⟨i, inside, rfl⟩ := List.getElem_of_mem member
  exact ⟨results[i], List.getElem_mem _, each i inside (length ▸ inside)⟩

/-- A list succeeds exactly where each entry does. -/
theorem exists_mapM_eq_ok_iff {step : α → Except Fault β} {entries : List α} :
    (∃ results, entries.mapM step = .ok results) ↔
      ∀ entry ∈ entries, ∃ result, step entry = .ok result := by
  refine ⟨fun ⟨results, run⟩ entry member => ?_, exists_mapM_eq_ok⟩
  obtain ⟨result, -, made⟩ := mem_of_mapM run member
  exact ⟨result, made⟩

/-- The results for entries in another order are the same ones in another order. -/
theorem exists_mapM_of_perm {step : α → Except Fault β} {entries others : List α}
    {results : List β} (perm : entries.Perm others) (run : entries.mapM step = .ok results) :
    ∃ found, others.mapM step = .ok found ∧ results.Perm found := by
  induction perm generalizing results with
  | nil => exact ⟨results, run, .rfl⟩
  | cons entry _ ih =>
      obtain ⟨first, rest, head, tail, rfl⟩ := mapM_cons_eq_ok.mp run
      obtain ⟨found, again, same⟩ := ih tail
      exact ⟨first :: found, mapM_cons_eq_ok.mpr ⟨first, found, head, again, rfl⟩, same.cons first⟩
  | swap second first entries =>
      obtain ⟨left, between, head, after, rfl⟩ := mapM_cons_eq_ok.mp run
      obtain ⟨right, rest, next, tail, rfl⟩ := mapM_cons_eq_ok.mp after
      have inner := mapM_cons_eq_ok.mpr ⟨left, rest, head, tail, rfl⟩
      exact ⟨right :: left :: rest, mapM_cons_eq_ok.mpr ⟨right, _, next, inner, rfl⟩, .swap ..⟩
  | trans _ _ leftward rightward =>
      obtain ⟨between, firstRun, firstSame⟩ := leftward run
      obtain ⟨found, secondRun, secondSame⟩ := rightward firstRun
      exact ⟨found, secondRun, firstSame.trans secondSame⟩

/-- So it is where the entries give no results. -/
theorem forM_eq_ok {step : α → Except Fault Unit} {entries : List α} :
    entries.forM step = .ok () ↔ ∀ entry ∈ entries, step entry = .ok () := by
  induction entries with
  | nil =>
      constructor
      · intro _ entry member
        cases member
      · intro _
        rfl
  | cons entry entries ih =>
      change step entry >>= (fun _ => entries.forM step) = .ok () ↔ _
      rw [bind_eq_ok, List.forall_mem_cons, ← ih]
      exact ⟨fun ⟨_, first, rest⟩ => ⟨first, rest⟩, fun ⟨first, rest⟩ => ⟨(), first, rest⟩⟩

/-- Folding succeeds where each step does from any state. -/
theorem exists_foldlM_eq_ok {step : β → α → Except Fault β} {entries : List α}
    (each : ∀ entry ∈ entries, ∀ state, ∃ next, step state entry = .ok next) (start : β) :
    ∃ final, entries.foldlM step start = .ok final := by
  induction entries generalizing start with
  | nil => exact ⟨start, rfl⟩
  | cons entry entries ih =>
      obtain ⟨next, first⟩ := each entry List.mem_cons_self start
      obtain ⟨final, rest⟩ :=
        ih (fun later member => each later (List.mem_cons_of_mem _ member)) next
      exact ⟨final, by rw [List.foldlM_cons]; exact bind_eq_ok.mpr ⟨next, first, rest⟩⟩

/-- A run over the images of some entries ends as the run over the entries does, where each step on
an image gives what the step on the entry gives. -/
theorem foldlM_map_eq_ok {γ : Type} {step : β → α → Except Fault β} {other : β → γ → Except Fault β}
    {image : α → γ} {entries : List α} {start final : β}
    (each : ∀ entry ∈ entries, ∀ state next, step state entry = .ok next →
      other state (image entry) = .ok next)
    (run : entries.foldlM step start = .ok final) :
    (entries.map image).foldlM other start = .ok final := by
  induction entries generalizing start with
  | nil => exact run
  | cons entry entries ih =>
      rw [List.foldlM_cons] at run
      obtain ⟨next, first, rest⟩ := bind_eq_ok.mp run
      rw [List.map_cons, List.foldlM_cons]
      refine bind_eq_ok.mpr ⟨next, each entry List.mem_cons_self start next first, ?_⟩
      exact ih (fun later member => each later (List.mem_cons_of_mem _ member)) rest

/-- What is known to be a success has a result. -/
theorem exists_of_isOk {run : Except Fault α} (succeeds : run.isOk = true) :
    ∃ value, run = .ok value := by
  cases run with
  | error fault => cases succeeds
  | ok value => exact ⟨value, rfl⟩

/-- A fault of folding is one of an entry at some state. -/
theorem exists_of_foldlM_eq_error {step : β → α → Except Fault β} {entries : List α} {start : β}
    {fault : Fault} (run : entries.foldlM step start = .error fault) :
    ∃ entry ∈ entries, ∃ state, step state entry = .error fault := by
  induction entries generalizing start with
  | nil => cases run
  | cons entry entries ih =>
      rw [List.foldlM_cons] at run
      rcases bind_eq_error.mp run with first | ⟨next, -, rest⟩
      · exact ⟨entry, List.mem_cons_self, start, first⟩
      · obtain ⟨later, member, failed⟩ := ih rest
        exact ⟨later, List.mem_cons_of_mem _ member, failed⟩

/-- A run fails where one of its entries fails in every state. -/
theorem exists_foldlM_eq_error {step : β → α → Except Fault β} {entries : List α} {entry : α}
    (member : entry ∈ entries) (fails : ∀ state, ∃ fault, step state entry = .error fault)
    (start : β) : ∃ fault, entries.foldlM step start = .error fault := by
  cases run : entries.foldlM step start with
  | error fault => exact ⟨fault, rfl⟩
  | ok final =>
      obtain ⟨before, after, rfl⟩ := List.append_of_mem member
      rw [List.foldlM_append] at run
      obtain ⟨state, -, rest⟩ := bind_eq_ok.mp run
      rw [List.foldlM_cons] at rest
      obtain ⟨next, passed, -⟩ := bind_eq_ok.mp rest
      obtain ⟨fault, failed⟩ := fails state
      rw [failed] at passed
      cases passed

/-- Two runs over the same entries correspond where each step of the one stands for a step of the
other. -/
theorem map_foldlM {γ Other : Type} {view : β → γ} {asOther : Fault → Other}
    {step : β → α → Except Other β} {other : γ → α → Except Fault γ} {entries : List α}
    (each : ∀ entry ∈ entries, ∀ state,
      (step state entry).map view = (other (view state) entry).mapError asOther) (start : β) :
    (entries.foldlM step start).map view =
      (entries.foldlM other (view start)).mapError asOther := by
  induction entries generalizing start with
  | nil => rfl
  | cons entry entries ih =>
      have first := each entry List.mem_cons_self start
      have later := ih fun other member => each other (List.mem_cons_of_mem _ member)
      rw [List.foldlM_cons, List.foldlM_cons]
      cases taken : step start entry with
      | error fault =>
          rw [taken] at first
          obtain ⟨found, failed, rfl⟩ := mapError_eq_error.mp first.symm
          rw [failed]
          rfl
      | ok next =>
          rw [taken] at first
          rw [mapError_eq_ok.mp first.symm]
          exact later next

/-! ### Faults that are allowed -/

/-- If a computation fails, then by a fault that is allowed. -/
def FailsWithin (allowed : Fault → Prop) (run : Except Fault α) : Prop :=
  ∀ fault, run = .error fault → allowed fault

variable {allowed : Fault → Prop}

/-- A success has no fault to allow. -/
theorem failsWithin_ok (value : α) : FailsWithin allowed (.ok value) := nofun

/-- Neither has a run that is known to succeed. -/
theorem failsWithin_of_exists {run : Except Fault α} (found : ∃ value, run = .ok value) :
    FailsWithin allowed run := by
  obtain ⟨value, rfl⟩ := found
  exact failsWithin_ok value

/-- A fault that is allowed may be thrown. -/
theorem failsWithin_error {fault : Fault} (fits : allowed fault) :
    FailsWithin allowed (.error fault : Except Fault α) :=
  fun _ same => Except.error.inj same ▸ fits

/-- A run in two parts has the faults of its parts. -/
theorem FailsWithin.bind {first : Except Fault α} {second : α → Except Fault β}
    (left : FailsWithin allowed first)
    (right : ∀ value, first = .ok value → FailsWithin allowed (second value)) :
    FailsWithin allowed (first >>= second) := by
  intro fault run
  rcases bind_eq_error.mp run with failed | ⟨value, found, failed⟩
  · exact left fault failed
  · exact right value found fault failed

/-- A last part that only returns adds no faults. -/
theorem FailsWithin.returning {first : Except Fault α} (fails : FailsWithin allowed first)
    (result : α → β) : FailsWithin allowed (first >>= fun value => pure (result value)) :=
  fails.bind fun value _ => failsWithin_ok (result value)

/-- Faults that are named otherwise are allowed under their new names. -/
theorem FailsWithin.mapError {Other : Type} {expected : Other → Prop} {asOther : Fault → Other}
    {run : Except Fault α} (fails : FailsWithin allowed run)
    (fits : ∀ fault, allowed fault → expected (asOther fault)) :
    FailsWithin expected (run.mapError asOther) := by
  intro other failed
  obtain ⟨fault, found, rfl⟩ := mapError_eq_error.mp failed
  exact fits fault (fails fault found)

/-- A list has the faults of its entries. -/
theorem failsWithin_mapM {step : α → Except Fault β} {entries : List α}
    (each : ∀ entry ∈ entries, FailsWithin allowed (step entry)) :
    FailsWithin allowed (entries.mapM step) := by
  intro fault run
  obtain ⟨entry, member, failed⟩ := exists_of_mapM_eq_error run
  exact each entry member fault failed

/-! ### Outcomes of two runs -/

section TwoRuns

variable {γ : Type} {relation : α → β → Prop}

/-- Two outcomes that are the same fault, or results in a relation. -/
inductive Related (relation : α → β → Prop) : Except Fault α → Except Fault β → Prop
  | error (fault : Fault) : Related relation (.error fault) (.error fault)
  | ok {left : α} {right : β} (holds : relation left right) :
      Related relation (.ok left) (.ok right)

/-- Related runs that go on in related ways stay related. -/
theorem Related.bind {δ : Type} {results : γ → δ → Prop} {left : Except Fault α}
    {right : Except Fault β} {next : α → Except Fault γ} {other : β → Except Fault δ}
    (related : Related relation left right)
    (continued : ∀ first second, relation first second →
      Related results (next first) (other second)) :
    Related results (left >>= next) (right >>= other) := by
  cases related with
  | error fault => exact .error fault
  | ok holds => exact continued _ _ holds

/-- Folding with related steps stays related. -/
theorem Related.foldlM {entries : List γ} {step : α → γ → Except Fault α}
    {other : β → γ → Except Fault β} {start : α} {first : β}
    (each : ∀ entry ∈ entries, ∀ state second, relation state second →
      Related relation (step state entry) (other second entry))
    (holds : relation start first) :
    Related relation (entries.foldlM step start) (entries.foldlM other first) := by
  induction entries generalizing start first with
  | nil => exact .ok holds
  | cons entry entries ih =>
      rw [List.foldlM_cons, List.foldlM_cons]
      refine (each entry List.mem_cons_self start first holds).bind fun next second kept => ?_
      exact ih (fun later member => each later (List.mem_cons_of_mem _ member)) kept

/-- Outcomes related by equality are equal. -/
theorem eq_of_related {left right : Except Fault α} (related : Related Eq left right) :
    left = right := by
  cases related with
  | error fault => rfl
  | ok same => rw [same]

/-- Related successes have related results. -/
theorem Related.of_ok {left : α} {right : β}
    (related : Related relation (.ok left : Except Fault α) (.ok right)) : relation left right := by
  cases related with
  | ok holds => exact holds

end TwoRuns

end Wireform.Outcome
