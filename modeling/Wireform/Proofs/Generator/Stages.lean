import Wireform.Generator.Run
import Wireform.Proofs.Outcome

/-! # The stages of a run

A run first reads what it needs and finds out what to write, and then writes it
(`Wireform.Generator.generate_eq`). The first stage, `Wireform.Generator.prepare`, depends on the
tree alone and changes nothing; only the second, `Wireform.Generator.deliver`, has effects. What
becomes of one file in the second stage is one of a few things (`Wireform.Generator.Emission`), and
of all of them what each of these keeps (`Wireform.Generator.emitAll_cases`).

Nothing is assumed here about the file system or about the reader of options.
-/

namespace Wireform.Generator

open Text (Raw)

variable {Tree System Node Object Document α β : Type}

/-! ### Actions on a running run -/

section Actions

variable {first : Running Tree System Node Document α}
  {second : α → Running Tree System Node Document β} {before after : Progress Tree Node}
  {result : β} {fault : Fault System Document}

/-- A run in two parts succeeds when its parts do. -/
theorem bind_eq_ok :
    (first >>= second) before = .ok result after ↔
      ∃ value between, first before = .ok value between ∧
        second value between = .ok result after := by
  change EStateM.bind first second before = _ ↔ _
  unfold EStateM.bind
  cases first before <;> simp [and_assoc]

/-- A run in two parts fails in its first part, or in the second after it. -/
theorem bind_eq_error :
    (first >>= second) before = .error fault after ↔
      first before = .error fault after ∨
        ∃ value between, first before = .ok value between ∧
          second value between = .error fault after := by
  change EStateM.bind first second before = _ ↔ _
  unfold EStateM.bind
  cases first before <;> simp [and_assoc]

end Actions

/-- A run after one more line was shown. -/
def Progress.shown (progress : Progress Tree Node) (line : String) : Progress Tree Node :=
  { progress with output := progress.output ++ line ++ "\n" }

/-- The action that changes nothing, with a result that depends on the tree alone. -/
def reading (result : Tree → Except (Fault System Document) α) :
    Running Tree System Node Document α := fun progress =>
  match result progress.tree with
  | .ok value => .ok value progress
  | .error fault => .error fault progress

private theorem reading_bind (result : Tree → Except (Fault System Document) α)
    (further : α → Tree → Except (Fault System Document) β) :
    (reading result >>= fun value => reading (further value) :
        Running Tree System Node Document β) =
      reading fun tree => result tree >>= fun value => further value tree := by
  funext progress
  change EStateM.bind (reading result) (fun value => reading (further value)) progress = _
  unfold EStateM.bind reading
  cases found : result progress.tree with
  | error fault => simp only [found]; rfl
  | ok value => simp only [found]; rfl

private theorem pure_eq_reading (value : α) :
    (pure value : Running Tree System Node Document α) = reading fun _ => pure value := rfl

private theorem ask_eq_reading (question : Tree → Except System α) :
    (ask question : Running Tree System Node Document α) =
      reading fun tree => (question tree).mapError .file := by
  funext progress
  simp only [ask, reading]
  cases question progress.tree <;> rfl

private theorem mapM_reading (result : α → Tree → Except (Fault System Document) β)
    (entries : List α) :
    (entries.mapM fun entry => reading (result entry) :
        Running Tree System Node Document (List β)) =
      reading fun tree => entries.mapM (result · tree) := by
  induction entries with
  | nil => rfl
  | cons entry entries ih => simp only [List.mapM_cons, ih, pure_eq_reading, reading_bind]

/-! ### The first stage -/

/-- What is known when a run begins to write. -/
structure Work where
  isLazy : Bool
  schema : Schema
  outputs : List Output

section Preparing

variable (system : FileSystem Tree System Node) (yaml : Yaml Object Document)
  (arguments : Arguments)

/-- The options of a run on a tree. -/
def optionsOn (tree : Tree) : Except (Fault System Document) Options := do
  let options ← match arguments.config.getD [] with
    | [] => pure {}
    | path => do (Options.parse yaml (← (system.read path tree).mapError .file)).mapError .options
  adjust arguments options

/-- The first stage of a run: what there is to write. -/
def prepare (tree : Tree) : Except (Fault System Document) Work := do
  let options ← optionsOn system yaml arguments tree
  let texts ← arguments.inputs.mapM fun path => (system.read path tree).mapError .file
  let schema ← (Schema.ofTexts texts).mapError .definitions
  let outputs ← (outputs options schema arguments.inputs).mapError .plan
  return ⟨options.lazy, schema, outputs⟩

variable {system yaml arguments} {tree : Tree} {fault : Fault System Document} {work : Work}

private theorem adjust_eq_error {options : Options}
    (failed : adjust arguments options = .error fault) : ∃ name, fault = .moduleName name := by
  unfold adjust at failed
  split at failed
  · cases failed
  · split at failed
    · cases failed
    · exact ⟨_, (Except.error.inj failed).symm⟩

/-- There are no options if their file is not read or not accepted, or if the name of the Python
module is refused. -/
theorem optionsOn_eq_error (failed : optionsOn system yaml arguments tree = .error fault) :
    (∃ cause, system.read (arguments.config.getD []) tree = .error cause ∧ fault = .file cause) ∨
      (∃ text cause, system.read (arguments.config.getD []) tree = .ok text ∧
        Options.parse yaml text = .error cause ∧ fault = .options cause) ∨
      ∃ name, fault = .moduleName name := by
  unfold optionsOn at failed
  split at failed
  · exact .inr (.inr (adjust_eq_error failed))
  · rcases Outcome.bind_eq_error.mp failed with unread | ⟨text, read, failed⟩
    · obtain ⟨cause, found, rfl⟩ := Outcome.mapError_eq_error.mp unread
      exact .inl ⟨cause, found, rfl⟩
    · rcases Outcome.bind_eq_error.mp failed with rejected | ⟨options, -, failed⟩
      · obtain ⟨cause, found, rfl⟩ := Outcome.mapError_eq_error.mp rejected
        exact .inr (.inl ⟨text, cause, Outcome.mapError_eq_ok.mp read, found, rfl⟩)
      · exact .inr (.inr (adjust_eq_error failed))

/-- There is something to write if there are options, all inputs are read, what they define is
accepted and the outputs can be planned. -/
theorem prepare_eq_ok_iff :
    prepare system yaml arguments tree = .ok work ↔
      ∃ options texts, optionsOn system yaml arguments tree = .ok options ∧
        (arguments.inputs.mapM fun path => system.read path tree) = .ok texts ∧
        Schema.ofTexts texts = .ok work.schema ∧
        outputs options work.schema arguments.inputs = .ok work.outputs ∧
        options.lazy = work.isLazy := by
  simp only [prepare, Outcome.bind_eq_ok, Outcome.mapError_eq_ok, Outcome.mapM_mapError_eq_ok,
    Outcome.pure_eq_ok]
  constructor
  · rintro ⟨options, decided, texts, read, schema, defined, outputs, planned, rfl⟩
    exact ⟨options, texts, decided, read, defined, planned, rfl⟩
  · rintro ⟨options, texts, decided, read, defined, planned, same⟩
    exact ⟨options, decided, texts, read, work.schema, defined, work.outputs, planned, by rw [same]⟩

/-- Why there may be nothing to write. -/
theorem prepare_eq_error (failed : prepare system yaml arguments tree = .error fault) :
    optionsOn system yaml arguments tree = .error fault ∨
      (∃ path ∈ arguments.inputs, ∃ cause, system.read path tree = .error cause ∧
        fault = .file cause) ∨
      (∃ texts cause, Schema.ofTexts texts = .error cause ∧ fault = .definitions cause) ∨
      ∃ options texts schema cause,
        (arguments.inputs.mapM fun path => system.read path tree) = .ok texts ∧
        Schema.ofTexts texts = .ok schema ∧
        outputs options schema arguments.inputs = .error cause ∧ fault = .plan cause := by
  rcases Outcome.bind_eq_error.mp failed with undecided | ⟨options, -, failed⟩
  · exact .inl undecided
  rcases Outcome.bind_eq_error.mp failed with unread | ⟨texts, read, failed⟩
  · obtain ⟨path, member, unread⟩ := Outcome.exists_of_mapM_eq_error unread
    obtain ⟨cause, found, rfl⟩ := Outcome.mapError_eq_error.mp unread
    exact .inr (.inl ⟨path, member, cause, found, rfl⟩)
  rcases Outcome.bind_eq_error.mp failed with undefined | ⟨schema, defined, failed⟩
  · obtain ⟨cause, found, rfl⟩ := Outcome.mapError_eq_error.mp undefined
    exact .inr (.inr (.inl ⟨texts, cause, found, rfl⟩))
  rcases Outcome.bind_eq_error.mp failed with unplanned | ⟨_, _, none⟩
  · obtain ⟨cause, found, rfl⟩ := Outcome.mapError_eq_error.mp unplanned
    exact .inr (.inr (.inr ⟨options, texts, schema, cause, Outcome.mapM_mapError_eq_ok.mp read,
      Outcome.mapError_eq_ok.mp defined, found, rfl⟩))
  · cases none

end Preparing

variable [Foreign System]

/-! ### The second stage -/

section Stages

variable (system : FileSystem Tree System Node) (yaml : Yaml Object Document)
  (arguments : Arguments)

/-- The second stage of a run: writing, and telling what was written. -/
def deliver (work : Work) : Running Tree System Node Document Unit := do
  let files := filesOn system
  files.makeDirectories arguments.outdir
  let written ← emitAll files work.isLazy arguments.inputs arguments.outdir work.outputs
  files.say (Raw.ofString (countLine work.schema written))
  work.schema.structs.forM fun struct => do
    files.say (Raw.ofString (← settle files .plan (structLine work.schema struct)))

private theorem settle_eq_reading {ε : Type} (asFault : ε → Fault System Document)
    (result : Except ε α) :
    settle (filesOn system) asFault result = reading fun _ => result.mapError asFault := by
  cases result <;> rfl

private theorem read_eq_reading (path : Raw) :
    (filesOn system).read path =
      (reading fun tree => (system.read path tree).mapError .file :
        Running Tree System Node Document String) :=
  ask_eq_reading _

private theorem readOptions_eq_reading :
    readOptions yaml (filesOn system) arguments =
      (reading (optionsOn system yaml arguments) :
        Running Tree System Node Document Options) := by
  have adjusted (options : Options) :
      (settle (filesOn system) id (adjust arguments options) :
        Running Tree System Node Document Options) = reading fun _ => adjust arguments options := by
    rw [settle_eq_reading]
    cases adjust arguments options <;> rfl
  unfold readOptions optionsOn
  generalize arguments.config.getD [] = config
  split
  · simp only [adjusted, pure_eq_reading, reading_bind]
  · simp only [adjusted, read_eq_reading, settle_eq_reading, reading_bind]

/-- **A run reads, and then writes.** -/
theorem generate_eq :
    generate yaml (filesOn system) arguments =
      (reading (prepare system yaml arguments) >>= deliver system arguments :
        Running Tree System Node Document Unit) := by
  have texts : (arguments.inputs.mapM (filesOn system).read :
        Running Tree System Node Document (List String)) =
      reading fun tree => arguments.inputs.mapM fun path =>
        (system.read path tree).mapError .file := by
    rw [← mapM_reading]
    congr 1
    funext path
    exact read_eq_reading system path
  unfold generate prepare deliver
  simp only [readOptions_eq_reading, texts, settle_eq_reading, ← reading_bind, bind_assoc,
    ← pure_eq_reading, pure_bind]

end Stages

/-! ### What becomes of one file -/

/-- A run after a file was opened. -/
def Progress.opening (progress : Progress Tree Node) (node : Node) (tree : Tree) :
    Progress Tree Node :=
  { progress with tree, opened := progress.opened ++ [node], unfinished := some node }

/-- A run after the file that was opened last is written. -/
def Progress.finished (progress : Progress Tree Node) (tree : Tree) : Progress Tree Node :=
  { progress with tree, unfinished := none }

section Emitting

variable (system : FileSystem Tree System Node)

/-- What becomes of the file at a path when it is written: it is not opened, there is no text for
it when it is open, the text is not written, or all is well. -/
inductive Writing (path : Raw) (output : Output) (before : Progress Tree Node) :
    EStateM.Result (Fault System Document) (Progress Tree Node) Unit → Prop
  | refused {fault : System} {tree : Tree}
      (closed : system.openFile path before.tree = .error fault tree) :
      Writing path output before (.error (.file fault) { before with tree })
  | textless {node : Node} {tree : Tree} {fault : TextFault}
      (opened : system.openFile path before.tree = .ok node tree)
      (none : output.text = .error fault) :
      Writing path output before (.error fault.toFault (before.opening node tree))
  | broken {node : Node} {tree after : Tree} {text : String} {fault : System}
      (opened : system.openFile path before.tree = .ok node tree)
      (some : output.text = .ok text) (failed : system.write node text tree = .error fault after) :
      Writing path output before
        (.error (.file fault) { before.opening node tree with tree := after })
  | written {node : Node} {tree after : Tree} {text : String}
      (opened : system.openFile path before.tree = .ok node tree)
      (some : output.text = .ok text) (filled : system.write node text tree = .ok () after) :
      Writing path output before (.ok () ((before.opening node tree).finished after))

variable (Document) in
private theorem writing (path : Raw) (output : Output) (before : Progress Tree Node) :
    Writing system path output before
      (writeOutput (filesOn system) path output before :
        EStateM.Result (Fault System Document) (Progress Tree Node) Unit) := by
  change Writing _ _ _ _ (EStateM.bind (EStateM.bind (change _) _) _ before)
  cases opened : system.openFile path before.tree with
  | error fault tree =>
      simp only [EStateM.bind, change, opened]
      exact .refused opened
  | ok node tree =>
      simp only [EStateM.bind, change, opened]
      cases some : output.text with
      | error fault => exact .textless opened some
      | ok text =>
          change Writing _ _ _ _
            (EStateM.bind (change (system.write node text)) _ (before.opening node tree))
          cases filled : system.write node text tree with
          | error fault after =>
              simp only [EStateM.bind, change, Progress.opening, filled]
              exact .broken opened some filled
          | ok value after =>
              simp only [EStateM.bind, change, Progress.opening, filled]
              change Writing _ _ _ _ (.ok () ((before.opening node tree).finished after))
              exact .written opened some filled

/-- Whether some of the files at some paths is younger than a stamp. -/
def youngerOn (written : Stamp) (tree : Tree) : List Raw → Except System Bool
  | [] => .ok false
  | input :: rest => do
      if (← system.status input tree).stamp.isAfter written then return true
      youngerOn written tree rest

/-- Whether a run has to write the output at a path: whether it is not lazy, or the output is
missing or older than an input. -/
def due (isLazy : Bool) (inputs : List Raw) (path : Raw) (tree : Tree) : Except System Bool :=
  if !isLazy || !system.isPresent path tree then .ok true
  else do youngerOn system (← system.status path tree).stamp tree inputs

private theorem stamp_eq_reading (path : Raw) :
    (filesOn system).stamp path =
      (reading fun tree => ((system.status path tree).map Status.stamp).mapError .file :
        Running Tree System Node Document Stamp) :=
  ask_eq_reading fun tree => (system.status path tree).map Status.stamp

private theorem anyYounger_eq_reading (written : Stamp) (inputs : List Raw) :
    anyYounger (filesOn system) written inputs =
      (reading fun tree => (youngerOn system written tree inputs).mapError .file :
        Running Tree System Node Document Bool) := by
  induction inputs with
  | nil => rfl
  | cons input rest ih =>
      unfold anyYounger
      rw [ih, stamp_eq_reading]
      have decided (stamp : Stamp) :
          (if stamp.isAfter written = true then pure true
            else reading fun tree => (youngerOn system written tree rest).mapError .file :
              Running Tree System Node Document Bool) =
            reading fun tree => if stamp.isAfter written = true then .ok true
              else (youngerOn system written tree rest).mapError .file := by
        split <;> rfl
      simp only [decided, reading_bind]
      congr 1
      funext tree
      rw [youngerOn]
      cases system.status input tree with
      | error fault => rfl
      | ok status =>
          change (if status.stamp.isAfter written then _ else _) =
            Except.mapError _ (if status.stamp.isAfter written then _ else _)
          split <;> rfl

private theorem needsGeneration_eq_reading (inputs : List Raw) (path : Raw) :
    needsGeneration (filesOn system) inputs path =
      (reading fun tree => (due system true inputs path tree).mapError .file :
        Running Tree System Node Document Bool) := by
  have asked : (filesOn system).isPresent path =
      (reading fun tree => .ok (system.isPresent path tree) :
        Running Tree System Node Document Bool) :=
    ask_eq_reading fun tree => .ok (system.isPresent path tree)
  unfold needsGeneration
  simp only [asked, anyYounger_eq_reading, stamp_eq_reading, reading_bind]
  have decided (present : Bool) :
      (if !present then pure true
        else reading fun tree => ((system.status path tree).map Status.stamp).mapError .file >>=
          fun written => (youngerOn system written tree inputs).mapError .file :
          Running Tree System Node Document Bool) =
        reading fun tree => if !present then .ok true
          else ((system.status path tree).map Status.stamp).mapError .file >>=
            fun written => (youngerOn system written tree inputs).mapError .file := by
    cases present <;> rfl
  simp only [decided, reading_bind]
  congr 1
  funext tree
  unfold due
  change (if !system.isPresent path tree then _ else _) =
    Except.mapError _ (if !system.isPresent path tree then _ else _)
  split
  · rfl
  · cases system.status path tree <;> rfl

variable (Document) in
/-- A file that is left alone, or written. -/
inductive Handled (isLazy : Bool) (inputs : List Raw) (path : Raw) (output : Output)
    (before : Progress Tree Node) : Bool → Progress Tree Node → Prop
  | skipped (current : due system isLazy inputs path before.tree = .ok false) :
      Handled isLazy inputs path output before false before
  | written (due : due system isLazy inputs path before.tree = .ok true)
      {after : Progress Tree Node}
      (done : Writing system path output before
        (.ok () after : EStateM.Result (Fault System Document) (Progress Tree Node) Unit)) :
      Handled isLazy inputs path output before true after

/-- What becomes of one output: it is not known whether it is due, it is due and not written, or it
is left alone or written, and then a line is shown or cannot be shown. -/
inductive Emission (isLazy : Bool) (inputs : List Raw) (path : Raw) (output : Output)
    (before : Progress Tree Node) :
    EStateM.Result (Fault System Document) (Progress Tree Node) Bool → Prop
  | unasked {fault : System} (failed : due system isLazy inputs path before.tree = .error fault) :
      Emission isLazy inputs path output before (.error (.file fault) before)
  | unwritten {fault : Fault System Document} {after : Progress Tree Node}
      (due : due system isLazy inputs path before.tree = .ok true)
      (failed : Writing system path output before (.error fault after)) :
      Emission isLazy inputs path output before (.error fault after)
  | untold {isDue : Bool} {reached : Progress Tree Node}
      (handled : Handled Document system isLazy inputs path output before isDue reached)
      (unspelt : (emissionLine isDue path).text? = none) :
      Emission isLazy inputs path output before
        (.error (.encoding (emissionLine isDue path)) reached)
  | told {isDue : Bool} {reached : Progress Tree Node} {line : String}
      (handled : Handled Document system isLazy inputs path output before isDue reached)
      (spelt : (emissionLine isDue path).text? = some line) :
      Emission isLazy inputs path output before (.ok isDue (reached.shown line))

private theorem emit_eq (isLazy : Bool) (inputs : List Raw) (outdir : Raw) (output : Output) :
    (emit (filesOn system) isLazy inputs outdir output : Running Tree System Node Document Bool) =
      reading (fun tree =>
          (due system isLazy inputs (Path.join outdir output.name) tree).mapError .file) >>=
        fun isDue =>
          let tell := do
            (filesOn system).say (emissionLine isDue (Path.join outdir output.name))
            return isDue
          if isDue then writeOutput (filesOn system) (Path.join outdir output.name) output >>=
            fun _ => tell
          else tell := by
  unfold emit
  cases isLazy with
  | false => rfl
  | true =>
      rw [if_pos rfl, needsGeneration_eq_reading]

variable (Document) in
/-- **What emitting an output does**, whatever comes of it. -/
theorem emission (isLazy : Bool) (inputs : List Raw) (outdir : Raw) (output : Output)
    (before : Progress Tree Node) :
    Emission system isLazy inputs (Path.join outdir output.name) output before
      (emit (filesOn system) isLazy inputs outdir output before :
        EStateM.Result (Fault System Document) (Progress Tree Node) Bool) := by
  rw [emit_eq]
  generalize Path.join outdir output.name = path
  have telling {isDue : Bool} {reached : Progress Tree Node}
      (handled : Handled Document system isLazy inputs path output before isDue reached) :
      Emission system isLazy inputs path output before
        (((filesOn system).say (emissionLine isDue path) >>= fun _ => pure isDue :
          Running Tree System Node Document Bool) reached) := by
    change Emission _ _ _ _ _ _ (EStateM.bind _ _ reached)
    unfold EStateM.bind
    cases spelt : (emissionLine isDue path).text? with
    | none =>
        simp only [filesOn, spelt]
        exact .untold handled spelt
    | some line =>
        simp only [filesOn, spelt]
        exact .told handled spelt
  change Emission _ _ _ _ _ _ (EStateM.bind (reading _) _ before)
  simp only [EStateM.bind, reading]
  cases decided : due system isLazy inputs path before.tree with
  | error fault => exact .unasked decided
  | ok isDue =>
      cases isDue with
      | false => exact telling (.skipped decided)
      | true =>
          have written := writing Document system path output before
          change Emission _ _ _ _ _ _
            (EStateM.bind (writeOutput (filesOn system) path output) _ before)
          unfold EStateM.bind
          cases done : (writeOutput (filesOn system) path output before :
              EStateM.Result (Fault System Document) (Progress Tree Node) Unit) with
          | error fault after => exact .unwritten decided (done ▸ written)
          | ok value after => exact telling (.written decided (done ▸ written))

end Emitting

end Wireform.Generator
