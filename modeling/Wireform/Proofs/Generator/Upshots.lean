import Wireform.Proofs.Generator.Stages

/-! # The upshot of a run

Of the outputs that a run writes one after the other, what each of them keeps is kept by all
(`Wireform.Generator.reached_of_emitAll`, `Wireform.Generator.reached_of_emitAll_eq_error`). What
becomes of the second stage of a run is one of four things (`Wireform.Generator.Delivery`), and a
command line ends as the stage does that it comes to (`Wireform.Generator.exists_of_failed`,
`Wireform.Generator.delivered_of_status`).
-/

namespace Wireform.Generator

open Text (Raw)

variable {Tree System Node Object Document : Type} [Foreign System]

section Emitting

/-! ### What becomes of all files -/

variable {system : FileSystem Tree System Node} {isLazy : Bool} {inputs : List Raw} {outdir : Raw}
  {output : Output} {outputs rest : List Output} {before after : Progress Tree Node} {count : Nat}
  {fault : Fault System Document}

/-- Outputs are emitted one after the other, and those that were due are counted. -/
theorem emitAll_cons_eq_ok :
    emitAll (filesOn system) isLazy inputs outdir (output :: rest) before =
        (.ok count after : EStateM.Result (Fault System Document) (Progress Tree Node) Nat) ↔
      ∃ isDue between others,
        emit (filesOn system) isLazy inputs outdir output before =
          (.ok isDue between : EStateM.Result (Fault System Document) _ _) ∧
        emitAll (filesOn system) isLazy inputs outdir rest between =
          (.ok others after : EStateM.Result (Fault System Document) _ _) ∧
        count = (if isDue then 1 else 0) + others := by
  change EStateM.bind _ _ before = _ ↔ _
  constructor
  · intro run
    obtain ⟨isDue, between, first, run⟩ := bind_eq_ok.mp run
    obtain ⟨others, after, later, run⟩ := bind_eq_ok.mp run
    obtain ⟨rfl, rfl⟩ := EStateM.Result.ok.inj run
    exact ⟨isDue, between, others, first, later, rfl⟩
  · rintro ⟨isDue, between, others, first, later, rfl⟩
    exact bind_eq_ok.mpr ⟨isDue, between, first, bind_eq_ok.mpr ⟨others, after, later, rfl⟩⟩

private theorem emitAll_cons_eq_error :
    emitAll (filesOn system) isLazy inputs outdir (output :: rest) before = .error fault after ↔
      emit (filesOn system) isLazy inputs outdir output before = .error fault after ∨
        ∃ isDue between, emit (filesOn system) isLazy inputs outdir output before =
            (.ok isDue between : EStateM.Result (Fault System Document) _ _) ∧
          emitAll (filesOn system) isLazy inputs outdir rest between = .error fault after := by
  change EStateM.bind _ _ before = _ ↔ _
  constructor
  · intro run
    rcases bind_eq_error.mp run with first | ⟨isDue, between, first, run⟩
    · exact .inl first
    · rcases bind_eq_error.mp run with later | ⟨_, _, _, run⟩
      · exact .inr ⟨isDue, between, first, later⟩
      · cases run
  · rintro (first | ⟨isDue, between, first, later⟩)
    · exact bind_eq_error.mpr (.inl first)
    · exact bind_eq_error.mpr (.inr ⟨isDue, between, first, bind_eq_error.mpr (.inl later)⟩)

section Reaching

/-! What each output keeps, all of them keep. The outputs that were handled so far are listed with
whether they were written. -/

variable (Reached : List (Output × Bool) → Progress Tree Node → Prop)
  (step : ∀ fates output later, outputs = fates.map Prod.fst ++ output :: later →
    ∀ reached isDue after, Reached fates reached →
      Emission system isLazy inputs (Path.join outdir output.name) output reached
        (.ok isDue after : EStateM.Result (Fault System Document) (Progress Tree Node) Bool) →
      Reached (fates ++ [(output, isDue)]) after)
include step

/-- **What each output keeps is reached in the end**, if nothing stops the run. -/
theorem reached_of_emitAll (start : Reached [] before)
    (run : emitAll (filesOn system) isLazy inputs outdir outputs before =
      (.ok count after : EStateM.Result (Fault System Document) (Progress Tree Node) Nat)) :
    ∃ fates, fates.map Prod.fst = outputs ∧ (fates.filter Prod.snd).length = count ∧
      Reached fates after := by
  suffices general : ∀ rest fates reached count, outputs = fates.map Prod.fst ++ rest →
      Reached fates reached →
      emitAll (filesOn system) isLazy inputs outdir rest reached =
        (.ok count after : EStateM.Result (Fault System Document) (Progress Tree Node) Nat) →
      ∃ later, later.map Prod.fst = rest ∧ (later.filter Prod.snd).length = count ∧
        Reached (fates ++ later) after from
    general outputs [] before count rfl start run
  intro rest
  induction rest with
  | nil =>
      intro fates reached count whole here run
      obtain ⟨rfl, rfl⟩ := EStateM.Result.ok.inj run
      exact ⟨[], rfl, rfl, by rwa [List.append_nil]⟩
  | cons output rest ih =>
      intro fates reached count whole here run
      obtain ⟨isDue, between, others, first, resumed, rfl⟩ := emitAll_cons_eq_ok.mp run
      have emitted := emission Document system isLazy inputs outdir output reached
      rw [first] at emitted
      obtain ⟨later, same, counted, there⟩ := ih (fates ++ [(output, isDue)]) between others
        (by simpa using whole) (step fates output rest whole reached isDue between here emitted)
        resumed
      refine ⟨(output, isDue) :: later, by simp [same], ?_, by simpa using there⟩
      cases isDue <;> simp [counted, Nat.add_comm]

/-- **What each output keeps is reached before the output that stops a run.** -/
theorem reached_of_emitAll_eq_error (start : Reached [] before)
    (run : emitAll (filesOn system) isLazy inputs outdir outputs before = .error fault after) :
    ∃ fates output later reached, outputs = fates.map Prod.fst ++ output :: later ∧
      Reached fates reached ∧
      Emission system isLazy inputs (Path.join outdir output.name) output reached
        (.error fault after) := by
  suffices general : ∀ rest fates reached, outputs = fates.map Prod.fst ++ rest →
      Reached fates reached →
      emitAll (filesOn system) isLazy inputs outdir rest reached = .error fault after →
      ∃ fates output later reached, outputs = fates.map Prod.fst ++ output :: later ∧
        Reached fates reached ∧
        Emission system isLazy inputs (Path.join outdir output.name) output reached
          (.error fault after) from
    general outputs [] before rfl start run
  intro rest
  induction rest with
  | nil =>
      intro fates reached whole here run
      cases run
  | cons output rest ih =>
      intro fates reached whole here run
      have emitted := emission Document system isLazy inputs outdir output reached
      rcases emitAll_cons_eq_error.mp run with first | ⟨isDue, between, first, resumed⟩
      · exact ⟨fates, output, rest, reached, whole, here, first ▸ emitted⟩
      · rw [first] at emitted
        exact ih (fates ++ [(output, isDue)]) between (by simpa using whole)
          (step fates output rest whole reached isDue between here emitted) resumed

end Reaching

end Emitting

/-! ### What becomes of a run -/

/-- Lines as they are shown one after the other. -/
def shownLines (lines : List String) : String := String.join (lines.map (· ++ "\n"))

/-- Lines that are shown one after the other are shown together. -/
theorem shownLines_append (first second : List String) :
    shownLines (first ++ second) = shownLines first ++ shownLines second := by
  simp [shownLines]

/-- A run after some lines were shown. -/
def Progress.saying (progress : Progress Tree Node) (lines : List String) : Progress Tree Node :=
  { progress with output := progress.output ++ shownLines lines }

private theorem shown_eq_saying (progress : Progress Tree Node) (line : String) :
    progress.shown line = progress.saying [line] := by
  simp [Progress.shown, Progress.saying, shownLines, String.append_assoc]

private theorem saying_nil (progress : Progress Tree Node) : progress.saying [] = progress := by
  simp [Progress.saying, shownLines]

private theorem saying_saying (progress : Progress Tree Node) (first second : List String) :
    (progress.saying first).saying second = progress.saying (first ++ second) := by
  simp only [Progress.saying, shownLines_append, String.append_assoc]

section Summing

variable (system : FileSystem Tree System Node) (schema : Schema)

private theorem say_ofString (text : String) (before : Progress Tree Node) :
    (filesOn system).say (Raw.ofString text) before =
      (.ok () (before.saying [text]) :
        EStateM.Result (Fault System Document) (Progress Tree Node) Unit) := by
  simp only [filesOn, Raw.text?_ofString, ← shown_eq_saying]
  rfl

/-- Shows the line about a struct. -/
def showStruct (struct : Struct) : Running Tree System Node Document Unit := do
  (filesOn system).say (Raw.ofString (← settle (filesOn system) .plan (structLine schema struct)))

variable (Document) in
/-- The summary has one line for each struct, unless one of them has no fingerprint. -/
private theorem forM_showStruct (structs : List Struct) (before : Progress Tree Node) :
    (∃ lines, structs.mapM (structLine schema) = .ok lines ∧
      structs.forM (showStruct system schema) before =
        (.ok () (before.saying lines) :
          EStateM.Result (Fault System Document) (Progress Tree Node) Unit)) ∨
      ∃ struct ∈ structs, ∃ fault lines, structLine schema struct = .error fault ∧
        structs.forM (showStruct system schema) before =
          (.error (.plan fault) (before.saying lines) :
            EStateM.Result (Fault System Document) (Progress Tree Node) Unit) := by
  induction structs generalizing before with
  | nil => exact .inl ⟨[], rfl, by rw [saying_nil]; rfl⟩
  | cons struct structs ih =>
      cases found : structLine schema struct with
      | error fault =>
          have first : showStruct system schema struct before =
              (.error (.plan fault) before :
                EStateM.Result (Fault System Document) (Progress Tree Node) Unit) := by
            simp only [showStruct, found]
            rfl
          refine .inr ⟨struct, List.mem_cons_self, fault, [], found, ?_⟩
          rw [saying_nil]
          exact bind_eq_error.mpr (.inl first)
      | ok line =>
          have first : showStruct system schema struct before =
              (.ok () (before.saying [line]) :
                EStateM.Result (Fault System Document) (Progress Tree Node) Unit) := by
            simp only [showStruct, found]
            exact say_ofString system line before
          rcases ih (before.saying [line]) with ⟨lines, all, rest⟩ |
            ⟨other, member, fault, lines, unknown, rest⟩
          · refine .inl ⟨line :: lines, Outcome.mapM_cons_eq_ok.mpr ⟨line, lines, found, all, rfl⟩,
              ?_⟩
            rw [saying_saying] at rest
            exact bind_eq_ok.mpr ⟨(), _, first, rest⟩
          · refine .inr ⟨other, List.mem_cons_of_mem _ member, fault, line :: lines, unknown, ?_⟩
            rw [saying_saying] at rest
            exact bind_eq_error.mpr (.inr ⟨(), _, first, rest⟩)

end Summing

section Delivering

variable (system : FileSystem Tree System Node) (arguments : Arguments) (work : Work)

/-- What becomes of a run that has work to do: its directory is not made, an output stops it, a
struct has no fingerprint, or all is done and told. -/
inductive Delivery (before : Progress Tree Node) :
    EStateM.Result (Fault System Document) (Progress Tree Node) Unit → Prop
  | unplaced {fault : System} {tree : Tree}
      (made : system.makeDirectories arguments.outdir before.tree = .error fault tree) :
      Delivery before (.error (.file fault) { before with tree })
  | stopped {tree : Tree} {fault : Fault System Document} {after : Progress Tree Node}
      (made : system.makeDirectories arguments.outdir before.tree = .ok () tree)
      (emitted : emitAll (filesOn system) work.isLazy arguments.inputs arguments.outdir work.outputs
        { before with tree } = .error fault after) :
      Delivery before (.error fault after)
  | unsummarized {tree : Tree} {count : Nat} {after : Progress Tree Node} {struct : Struct}
      {fault : PlanFault} {lines : List String} (member : struct ∈ work.schema.structs)
      (unknown : structLine work.schema struct = .error fault)
      (made : system.makeDirectories arguments.outdir before.tree = .ok () tree)
      (emitted : emitAll (filesOn system) work.isLazy arguments.inputs arguments.outdir work.outputs
        { before with tree } =
          (.ok count after : EStateM.Result (Fault System Document) (Progress Tree Node) Nat)) :
      Delivery before (.error (.plan fault) (after.saying lines))
  | done {tree : Tree} {count : Nat} {after : Progress Tree Node} {lines : List String}
      (made : system.makeDirectories arguments.outdir before.tree = .ok () tree)
      (emitted : emitAll (filesOn system) work.isLazy arguments.inputs arguments.outdir work.outputs
        { before with tree } =
          (.ok count after : EStateM.Result (Fault System Document) (Progress Tree Node) Nat))
      (summarized : work.schema.structs.mapM (structLine work.schema) = .ok lines) :
      Delivery before (.ok () (after.saying (countLine work.schema count :: lines)))

variable (Document) in
/-- **What delivering the work of a run does**, whatever comes of it. -/
theorem delivery (before : Progress Tree Node) :
    Delivery system arguments work before
      (deliver system arguments work before :
        EStateM.Result (Fault System Document) (Progress Tree Node) Unit) := by
  change Delivery _ _ _ _ (EStateM.bind (change _) _ before)
  unfold EStateM.bind
  cases made : system.makeDirectories arguments.outdir before.tree with
  | error fault tree =>
      simp only [change, made]
      exact .unplaced made
  | ok value tree =>
      simp only [change, made]
      change Delivery _ _ _ _ (EStateM.bind (emitAll _ _ _ _ _) _ { before with tree })
      unfold EStateM.bind
      cases emitted : (emitAll (filesOn system) work.isLazy arguments.inputs arguments.outdir
          work.outputs { before with tree } :
            EStateM.Result (Fault System Document) (Progress Tree Node) Nat) with
      | error fault after => exact .stopped made emitted
      | ok count after =>
          change Delivery _ _ _ _ (EStateM.bind _ _ after)
          unfold EStateM.bind
          simp only [say_ofString]
          change Delivery _ _ _ _ (work.schema.structs.forM (showStruct system work.schema) _)
          rcases forM_showStruct Document system work.schema work.schema.structs
              (after.saying [countLine work.schema count]) with
            ⟨lines, all, shown⟩ | ⟨struct, member, fault, lines, unknown, shown⟩
          · rw [shown, saying_saying]
            exact .done made emitted all
          · rw [shown, saying_saying]
            exact .unsummarized member unknown made emitted

variable {system arguments work} in
/-- A run is done when its directory is made, its outputs are emitted and its structs have
fingerprints. -/
theorem deliver_eq_ok {before after : Progress Tree Node} {tree : Tree} {count : Nat}
    {lines : List String} (made : system.makeDirectories arguments.outdir before.tree = .ok () tree)
    (emitted : emitAll (filesOn system) work.isLazy arguments.inputs arguments.outdir work.outputs
      { before with tree } =
        (.ok count after : EStateM.Result (Fault System Document) (Progress Tree Node) Nat))
    (summarized : work.schema.structs.mapM (structLine work.schema) = .ok lines) :
    deliver system arguments work before =
      (.ok () (after.saying (countLine work.schema count :: lines)) :
        EStateM.Result (Fault System Document) (Progress Tree Node) Unit) := by
  have delivered := delivery Document system arguments work before
  generalize deliver system arguments work before = result at delivered ⊢
  cases delivered with
  | unplaced unmade => cases made.symm.trans unmade
  | stopped again stopped =>
      obtain ⟨-, rfl⟩ := EStateM.Result.ok.inj (made.symm.trans again)
      cases emitted.symm.trans stopped
  | unsummarized member unknown again others =>
      obtain ⟨line, -, shown⟩ := Outcome.mem_of_mapM summarized member
      cases shown.symm.trans unknown
  | done again others lines =>
      obtain ⟨-, rfl⟩ := EStateM.Result.ok.inj (made.symm.trans again)
      obtain ⟨rfl, rfl⟩ := EStateM.Result.ok.inj (emitted.symm.trans others)
      obtain rfl := Except.ok.inj (summarized.symm.trans lines)
      rfl

end Delivering

/-! ### What becomes of a command line -/

section Ending

variable [Foreign Document] {system : FileSystem Tree System Node} {yaml : Yaml Object Document}
  {tree : Tree} {words : List Raw} {arguments : Arguments}

/-- The upshot of a run with a given result. -/
def upshotOf : EStateM.Result (Fault System Document) (Progress Tree Node) Unit →
    Upshot Tree System Node Document
  | .ok () progress => { progress with ending := .done }
  | .error fault progress =>
      { progress with
        ending := .failed fault
        output := progress.output ++ if fault.isReported then fault.report ++ "\n" else "" }

private theorem runOn_eq_upshotOf (read : CommandLine.read words = .ok (.run arguments)) :
    runOn system yaml tree words =
      upshotOf
        ((reading (prepare system yaml arguments) >>= deliver system arguments) { tree }) := by
  unfold runOn
  rw [read]
  simp only [generate_eq]
  cases (reading (prepare system yaml arguments) >>= deliver system arguments :
    Running Tree System Node Document Unit) { tree } <;> rfl

/-- A run that finds out that it has nothing to do changes nothing. -/
theorem runOn_of_prepare_error (read : CommandLine.read words = .ok (.run arguments))
    {fault : Fault System Document}
    (rejected : prepare system yaml arguments tree = .error fault) :
    runOn system yaml tree words = upshotOf (.error fault { tree }) := by
  have failed : (reading (prepare system yaml arguments) >>= deliver system arguments :
      Running Tree System Node Document Unit) { tree } = .error fault { tree } :=
    bind_eq_error.mpr (.inl (by simp only [reading, rejected]))
  rw [runOn_eq_upshotOf read, failed]

/-- A run that has work to do ends as its second stage does. -/
theorem runOn_of_prepare_ok (read : CommandLine.read words = .ok (.run arguments)) {work : Work}
    (prepared : prepare system yaml arguments tree = .ok work) :
    runOn system yaml tree words = upshotOf (deliver system arguments work { tree }) := by
  have through : (reading (prepare system yaml arguments) >>= deliver system arguments :
      Running Tree System Node Document Unit) { tree } =
        deliver system arguments work { tree } := by
    change EStateM.bind _ _ _ = _
    simp only [EStateM.bind, reading, prepared]
  rw [runOn_eq_upshotOf read, through]

/-- A run that ends well is done. -/
theorem delivered_of_status (read : CommandLine.read words = .ok (.run arguments))
    (ended : (runOn system yaml tree words).ending.status? = some 0) :
    ∃ work after, prepare system yaml arguments tree = .ok work ∧
      deliver system arguments work { tree } =
        (.ok () after : EStateM.Result (Fault System Document) (Progress Tree Node) Unit) ∧
      runOn system yaml tree words = upshotOf (.ok () after) := by
  have failed (fault : Fault System Document) :
      (Ending.failed fault).status? ≠ some 0 := by
    rw [Ending.status?]
    split <;> simp
  cases prepared : prepare system yaml arguments tree with
  | error fault =>
      rw [runOn_of_prepare_error read prepared] at ended
      exact absurd ended (failed fault)
  | ok work =>
      rw [runOn_of_prepare_ok read prepared] at ended ⊢
      cases delivered : (deliver system arguments work { tree } :
          EStateM.Result (Fault System Document) (Progress Tree Node) Unit) with
      | error fault after =>
          rw [delivered] at ended
          exact absurd ended (failed fault)
      | ok value after => exact ⟨work, after, rfl, delivered, rfl⟩

/-- A command line that fails is a run that fails in its first stage or in its second. -/
theorem exists_of_failed {fault : Fault System Document}
    (failed : (runOn system yaml tree words).ending = .failed fault) :
    ∃ arguments, CommandLine.read words = .ok (.run arguments) ∧
      (prepare system yaml arguments tree = .error fault ∧
          runOn system yaml tree words = upshotOf (.error fault { tree }) ∨
        ∃ work after, prepare system yaml arguments tree = .ok work ∧
          deliver system arguments work { tree } = .error fault after ∧
          runOn system yaml tree words = upshotOf (.error fault after)) := by
  cases read : CommandLine.read words with
  | error misuse =>
      rw [runOn, read] at failed
      cases failed
  | ok request =>
      cases request with
      | help =>
          rw [runOn, read] at failed
          cases failed
      | run arguments =>
          refine ⟨arguments, rfl, ?_⟩
          cases prepared : prepare system yaml arguments tree with
          | error cause =>
              rw [runOn_of_prepare_error read prepared] at failed ⊢
              obtain rfl := Ending.failed.inj failed
              exact .inl ⟨rfl, rfl⟩
          | ok work =>
              rw [runOn_of_prepare_ok read prepared] at failed ⊢
              cases delivered : (deliver system arguments work { tree } :
                  EStateM.Result (Fault System Document) (Progress Tree Node) Unit) with
              | ok value after =>
                  rw [delivered] at failed
                  cases failed
              | error cause after =>
                  rw [delivered] at failed
                  obtain rfl := Ending.failed.inj failed
                  exact .inr ⟨work, after, rfl, delivered, rfl⟩

end Ending

end Wireform.Generator
