import Wireform.Generator.Tree
import Wireform.Proofs.FileTree.Lawful
import Wireform.Proofs.Generator.Courses
import Wireform.Proofs.Generator.OutputNames

/-! # Lazy runs

A history of an output directory (`Wireform.Generator.History`) begins with the directory empty.
After that, files elsewhere are edited, and runs that differ in their laziness only write to the
directory, all of it at times that increase. Each run may fail at any step, and a run that is broken
off may leave a file that it has opened and not written in full.

Of every other file it is known which run has written it (`Wireform.Generator.Accounts`): since
then, each input has stayed as it was or has become younger than the file. So what a lazy run leaves
alone, since no input is younger, has the text that a run would give it now
(`Wireform.Generator.holds_of_lazy_run`).
-/

namespace Wireform.Generator

open FileSystem (View)
open Wireform.Path (IsPlain)
open Text (Raw)

variable {Tree System Node Contents Object Document : Type} {view : View Tree Node Contents}
  {system : FileSystem Tree System Node} {yaml : Yaml Object Document} {arguments : Arguments}
  {tree before after : Tree} {work later : Work} {clock time : Int} {words : List Raw}

/-! ### What a run needs -/

/-- The inputs of a run that has work to do are files. -/
theorem fileAt?_of_prepare (lawful : view.IsLawful system)
    (prepared : prepare system yaml arguments tree = .ok work) :
    ∀ input ∈ arguments.inputs, ∃ contents stamp text,
      view.fileAt? input tree = some (contents, stamp) ∧ system.read input tree = .ok text ∧
        view.textOf contents = text := by
  obtain ⟨options, texts, -, read, -⟩ := prepare_eq_ok_iff.mp prepared
  intro input member
  obtain ⟨text, -, found⟩ := Outcome.mem_of_mapM read member
  obtain ⟨contents, stamp, file, same⟩ := lawful.read_ok found
  exact ⟨contents, stamp, text, file, found, same⟩

private theorem optionsOn_of_unconfigured {arguments : Arguments}
    (unconfigured : arguments.config.getD [] = []) :
    optionsOn system yaml arguments tree =
      (adjust arguments {} : Except (Fault System Document) _) := by
  unfold optionsOn
  rw [unconfigured]
  rfl

/-- The switch for lazy runs decides about laziness only. -/
theorem adjust_lazy {isLazy : Bool} {given options : Options}
    (adjusted :
      (adjust { arguments with lazy := isLazy } given : Except (Fault System Document) _) =
      .ok options) (other : Bool) :
    (adjust { arguments with lazy := other } given : Except (Fault System Document) _) =
      .ok { options with lazy := given.lazy || other } := by
  unfold adjust at adjusted ⊢
  dsimp only at adjusted ⊢
  generalize arguments.moduleName.getD [] = name at adjusted ⊢
  cases name with
  | nil =>
      obtain rfl := Outcome.pure_eq_ok.mp adjusted
      rfl
  | cons c cs =>
      simp only at adjusted ⊢
      generalize Option.filter _ _ = accepted at adjusted ⊢
      cases accepted with
      | none => cases adjusted
      | some name =>
          obtain rfl := Outcome.pure_eq_ok.mp adjusted
          rfl

private theorem isLazy_of_adjust {options : Options}
    (adjusted : (adjust arguments {} : Except (Fault System Document) _) = .ok options) :
    options.lazy = arguments.lazy := by
  unfold adjust at adjusted
  dsimp only at adjusted
  split at adjusted
  · obtain rfl := Outcome.pure_eq_ok.mp adjusted
    exact Bool.false_or _
  · split at adjusted
    · obtain rfl := Outcome.pure_eq_ok.mp adjusted
      exact Bool.false_or _
    · cases adjusted

private theorem isLazy_of_prepare (unconfigured : arguments.config.getD [] = [])
    (prepared : prepare system yaml arguments tree = .ok work) : work.isLazy = arguments.lazy := by
  obtain ⟨options, texts, decided, -, -, -, same⟩ := prepare_eq_ok_iff.mp prepared
  rw [optionsOn_of_unconfigured unconfigured] at decided
  rw [← same, isLazy_of_adjust decided]

/-- Runs without an options file make the same of the same inputs, lazy or not. -/
theorem outputs_of_same_inputs (lawful : view.IsLawful system)
    (unconfigured : arguments.config.getD [] = []) {isLazy isLazyLater : Bool}
    (prepared : prepare system yaml { arguments with lazy := isLazy } before = .ok work)
    (again : prepare system yaml { arguments with lazy := isLazyLater } after = .ok later)
    (same : ∀ input ∈ arguments.inputs, view.fileAt? input after = view.fileAt? input before) :
    later.outputs = work.outputs := by
  have texts : (arguments.inputs.mapM fun path => system.read path after) =
      arguments.inputs.mapM fun path => system.read path before := by
    refine Outcome.mapM_congr fun input member => ?_
    obtain ⟨contents, stamp, text, file, read, textOf⟩ :=
      fileAt?_of_prepare lawful prepared input member
    obtain ⟨_, _, _, fileAgain, readAgain, textAgain⟩ :=
      fileAt?_of_prepare lawful again input member
    rw [same input member, file] at fileAgain
    obtain ⟨rfl, -⟩ := Prod.mk.inj (Option.some.inj fileAgain)
    rw [read, readAgain, ← textOf, ← textAgain]
  obtain ⟨options, found, decided, read, defined, planned, -⟩ := prepare_eq_ok_iff.mp prepared
  obtain ⟨others, foundAgain, decidedAgain, readAgain, definedAgain, plannedAgain, -⟩ :=
    prepare_eq_ok_iff.mp again
  rw [optionsOn_of_unconfigured (by exact unconfigured)] at decided decidedAgain
  obtain rfl := Except.ok.inj ((adjust_lazy decided isLazyLater).symm.trans decidedAgain)
  obtain rfl := Except.ok.inj (read.symm.trans (texts.symm.trans readAgain))
  have schema := Except.ok.inj (defined.symm.trans definedAgain)
  rw [← schema] at plannedAgain
  exact (Except.ok.inj (planned.symm.trans plannedAgain)).symm

variable [Foreign System] [Foreign Document]

/-! ### Runs in a directory that is there -/

/-- What a run has done when it ends. -/
def Upshot.progress (upshot : Upshot Tree System Node Document) : Progress Tree Node :=
  ⟨upshot.tree, upshot.output, upshot.opened, upshot.unfinished⟩

/-- A run into a directory that is there opens files for some of its outputs, if it comes to that.
-/
theorem exists_course (yaml : Yaml Object Document) (lawful : view.IsLawful system)
    (read : CommandLine.read words = .ok (.run arguments))
    (there : system.isDirectory arguments.outdir tree = true) :
    ∃ opens : List (Output × Node), Course view system arguments.outdir tree opens
        (runOn system yaml tree words).progress ∧
      (opens = [] ∨ ∃ work, prepare system yaml arguments tree = .ok work ∧
        (opens.map Prod.fst).Sublist work.outputs) := by
  cases prepared : prepare system yaml arguments tree with
  | error fault =>
      rw [runOn_of_prepare_error read prepared]
      exact ⟨[], .begin rfl rfl, .inl rfl⟩
  | ok work =>
      rw [runOn_of_prepare_ok read prepared]
      have plain := (names_of_prepare prepared).2
      have unmade := lawful.makeDirectories_of_there there
      have delivered := delivery Document system arguments work { tree }
      generalize deliver system arguments work { tree } = result at delivered
      cases delivered with
      | unplaced made =>
          rw [made] at unmade
          obtain rfl := unmade
          exact ⟨[], .begin rfl rfl, .inl rfl⟩
      | stopped made emitted =>
          rw [made] at unmade
          obtain rfl := unmade
          obtain ⟨opens, within, course⟩ :=
            course_of_emitAll_eq_error lawful plain rfl rfl emitted
          exact ⟨opens, course.congr rfl rfl rfl, .inr ⟨work, rfl, within⟩⟩
      | unsummarized member unknown made emitted =>
          rw [made] at unmade
          obtain rfl := unmade
          obtain ⟨fates, opens, whole, arrival⟩ := arrival_of_emitAll lawful plain rfl rfl emitted
          refine ⟨opens, arrival.course.congr rfl rfl rfl, .inr ⟨work, rfl, ?_⟩⟩
          rw [arrival.opened, ← whole]
          exact List.filter_sublist.map _
      | done made emitted summarized =>
          rw [made] at unmade
          obtain rfl := unmade
          obtain ⟨fates, opens, whole, arrival⟩ := arrival_of_emitAll lawful plain rfl rfl emitted
          refine ⟨opens, arrival.course.congr rfl rfl rfl, .inr ⟨work, rfl, ?_⟩⟩
          rw [arrival.opened, ← whole]
          exact List.filter_sublist.map _

/-! ### Histories -/

section Histories

variable (view) (system) (yaml) (arguments)

/-- No input is a file of the output directory. -/
def IsApart (tree : Tree) : Prop :=
  ∀ input ∈ arguments.inputs, ∀ name, IsPlain name → ∀ node, view.leadsTo input tree = some node →
    view.leadsTo (Path.join arguments.outdir name) tree ≠ some node

/-- A change that leaves the output directory and its files alone. An input that is not as it was
has the time of its change. -/
structure IsEdit (clock time : Int) (before after : Tree) : Prop where
  inputs : ∀ input ∈ arguments.inputs, view.fileAt? input after = view.fileAt? input before ∨
    ∀ contents stamp, view.fileAt? input after = some (contents, stamp) →
      ∃ edited, stamp = .time edited ∧ clock < edited ∧ edited ≤ time
  directory : system.isDirectory arguments.outdir after
  taken : ∀ name, IsPlain name → view.IsTaken (Path.join arguments.outdir name) after →
    view.IsTaken (Path.join arguments.outdir name) before
  leadsTo : ∀ name, IsPlain name → view.leadsTo (Path.join arguments.outdir name) after =
    view.leadsTo (Path.join arguments.outdir name) before
  files : ∀ name, IsPlain name → ∀ node,
    view.leadsTo (Path.join arguments.outdir name) before = some node →
      view.file? node after = view.file? node before
  apart : IsApart view arguments after

/-- The files that a run opened have times of the run, and all else is as the run left it. -/
structure IsStamped (clock time : Int) (upshot : Upshot Tree System Node Document) (after : Tree) :
    Prop where
  opened : ∀ node ∈ upshot.opened, ∀ contents stamp,
    view.file? node upshot.tree = some (contents, stamp) →
      ∃ written, view.file? node after = some (contents, .time written) ∧ clock < written ∧
        written ≤ time
  others : ∀ node ∉ upshot.opened, view.file? node after = view.file? node upshot.tree
  leadsTo : ∀ path, view.leadsTo path after = view.leadsTo path upshot.tree
  taken : ∀ path, view.IsTaken path after → view.IsTaken path upshot.tree
  directories : ∀ path, system.isDirectory path upshot.tree → system.isDirectory path after

/-- The files that are left unfinished after a run: the one that it left, and those that were there
before and that it did not open again. -/
def leftAfter (IsLeft : Node → Prop) (upshot : Upshot Tree System Node Document) (node : Node) :
    Prop :=
  upshot.unfinished = some node ∨ IsLeft node ∧ node ∉ upshot.opened

/-- What may have become of a tree by a time, and which files were left unfinished. The runs write
to an output directory that was empty at first, the edits write elsewhere. -/
inductive History : Tree → Int → (Node → Prop) → Prop
  | start {tree : Tree} {clock : Int} (directory : system.isDirectory arguments.outdir tree)
      (empty : ∀ name, IsPlain name → ¬view.IsTaken (Path.join arguments.outdir name) tree) :
      History tree clock fun _ => False
  | edit {before after : Tree} {clock time : Int} {IsLeft : Node → Prop}
      (history : History before clock IsLeft) (later : clock < time)
      (edited : IsEdit view system arguments clock time before after) : History after time IsLeft
  | run {before after : Tree} {clock time : Int} {IsLeft : Node → Prop} {words : List Raw}
      {isLazy : Bool} (history : History before clock IsLeft) (later : clock < time)
      (read : CommandLine.read words = .ok (.run { arguments with lazy := isLazy }))
      (stamped : IsStamped view system clock time (runOn system yaml before words) after) :
      History after time (leftAfter IsLeft (runOn system yaml before words))

/-! ### What is known of a file -/

/-- A file is as it was, or it has become younger than a time. -/
def IsSince (time : Int) (file later : Option (Contents × Stamp)) : Prop :=
  later = file ∨ ∀ contents stamp, later = some (contents, stamp) →
    ∃ edited, stamp = .time edited ∧ time < edited

/-- A file holds the text of an output of that name that some run had. Since then each input has
stayed as it was or has become younger than the file. -/
def IsFrom (name : String) (node : Node) (contents : Contents) (written : Int) (tree : Tree) :
    Prop :=
  ∃ (origin : Tree) (isLazy : Bool) (work : Work) (output : Output) (text : String),
    prepare system yaml { arguments with lazy := isLazy } origin = .ok work ∧
      output ∈ work.outputs ∧ output.name = name ∧ output.text = .ok text ∧
      contents = view.holding node text ∧
      ∀ input ∈ arguments.inputs,
        IsSince written (view.fileAt? input origin) (view.fileAt? input tree)

/-- Of every file of the output directory it is known where it is from, unless it was left
unfinished. -/
structure Accounts (clock : Int) (IsLeft : Node → Prop) (tree : Tree) : Prop where
  directory : system.isDirectory arguments.outdir tree
  tidy : IsTidy view arguments.outdir tree
  apart : IsApart view arguments tree
  files : ∀ name, IsPlain name → ∀ node,
    view.leadsTo (Path.join arguments.outdir name) tree = some node →
      ∃ contents written, view.file? node tree = some (contents, .time written) ∧
        written ≤ clock ∧
        (IsLeft node ∨ IsFrom view system yaml arguments name node contents written tree)

end Histories

variable {IsLeft : Node → Prop} {name : String} {node : Node} {contents : Contents} {written : Int}

omit [Foreign System] [Foreign Document] in
/-- A file is still known when inputs are edited after it was written. -/
private theorem IsFrom.edit
    (known : IsFrom view system yaml arguments name node contents written before)
    (early : written ≤ clock)
    (edited : ∀ input ∈ arguments.inputs, view.fileAt? input after = view.fileAt? input before ∨
      ∀ contents stamp, view.fileAt? input after = some (contents, stamp) →
        ∃ edited, stamp = .time edited ∧ clock < edited) :
    IsFrom view system yaml arguments name node contents written after := by
  obtain ⟨origin, isLazy, work, output, text, prepared, listed, named, spelt, held, since⟩ := known
  refine ⟨origin, isLazy, work, output, text, prepared, listed, named, spelt, held, ?_⟩
  intro input member
  rcases edited input member with same | younger
  · rw [IsSince, same]
    exact since input member
  · refine .inr fun contents stamp found => ?_
    obtain ⟨time, rfl, late⟩ := younger contents stamp found
    exact ⟨time, rfl, by omega⟩

omit [Foreign System] [Foreign Document] in
/-- An edit keeps the accounts. -/
private theorem Accounts.edit
    (accounts : Accounts view system yaml arguments clock IsLeft before) (later : clock < time)
    (edited : IsEdit view system arguments clock time before after) :
    Accounts view system yaml arguments time IsLeft after := by
  have kept (name : String) (plain : IsPlain name) (node : Node)
      (led : view.leadsTo (Path.join arguments.outdir name) after = some node) :
      view.leadsTo (Path.join arguments.outdir name) before = some node ∧
        view.file? node after = view.file? node before := by
    rw [edited.leadsTo name plain] at led
    exact ⟨led, edited.files name plain node led⟩
  refine ⟨edited.directory, ⟨?_, ?_⟩, edited.apart, ?_⟩
  · intro name plain taken
    obtain ⟨node, led, isFile⟩ := accounts.tidy.files name plain (edited.taken name plain taken)
    refine ⟨node, (edited.leadsTo name plain).trans led, ?_⟩
    rwa [edited.files name plain node led]
  · intro first second node firstPlain secondPlain there again
    exact accounts.tidy.distinct first second node firstPlain secondPlain
      (kept first firstPlain node there).1 (kept second secondPlain node again).1
  · intro name plain node led
    obtain ⟨was, same⟩ := kept name plain node led
    obtain ⟨contents, written, file, early, known⟩ := accounts.files name plain node was
    refine ⟨contents, written, same.trans file, by omega, known.imp_right fun known => ?_⟩
    refine known.edit early fun input member => (edited.inputs input member).imp_right ?_
    intro younger contents stamp found
    obtain ⟨time, rfl, late, -⟩ := younger contents stamp found
    exact ⟨time, rfl, late⟩

section Runs

variable {opens : List (Output × Node)} {progress : Progress Tree Node}
  (asked : opens = [] ∨ ∃ work, prepare system yaml arguments tree = .ok work ∧
    (opens.map Prod.fst).Sublist work.outputs)
include asked

omit [Foreign System] [Foreign Document]

/-- A file is opened for an output of what there is to write. -/
private theorem exists_work {pair : Output × Node} (member : pair ∈ opens) :
    ∃ work, prepare system yaml arguments tree = .ok work ∧ pair.1 ∈ work.outputs ∧
      IsPlain pair.1.name := by
  rcases asked with rfl | ⟨work, prepared, within⟩
  · cases member
  · have listed := within.subset (List.mem_map_of_mem member)
    exact ⟨work, prepared, listed, (names_of_prepare prepared).2 pair.1 listed⟩

private theorem nodup_names : (opens.map fun pair => pair.1.name).Nodup := by
  rcases asked with rfl | ⟨work, prepared, within⟩
  · exact List.nodup_nil
  · have names := (names_of_prepare prepared).1.sublist (within.map Output.name)
    rwa [List.map_map] at names

/-- The inputs of a run stay as they are in its course. -/
private theorem inputs_of_course (lawful : view.IsLawful system)
    (apart : IsApart view arguments tree)
    (course : Course view system arguments.outdir tree opens progress) {input : Raw}
    (member : input ∈ arguments.inputs) :
    (∀ node, view.leadsTo input progress.tree = some node → node ∉ progress.opened) ∧
      view.leadsTo input progress.tree = view.leadsTo input tree := by
  have outside (node : Node) (led : view.leadsTo input progress.tree = some node) :
      node ∉ progress.opened := by
    intro opened
    obtain ⟨pair, listed, -⟩ := List.mem_map.mp (course.opened ▸ opened)
    obtain ⟨work, prepared, -⟩ := exists_work asked listed
    obtain ⟨contents, stamp, -, file, -⟩ := fileAt?_of_prepare lawful prepared input member
    obtain ⟨same, before, held⟩ := Option.bind_eq_some_iff.mp file
    obtain rfl := Option.some.inj ((course.paths input same before).symm.trans led)
    rcases course.fresh same opened with none | ⟨other, otherListed, reached⟩
    · rw [none] at held
      cases held
    · obtain ⟨-, -, -, plain⟩ := exists_work asked otherListed
      exact apart input member _ plain same before reached
  refine ⟨outside, Option.ext fun node => ⟨fun led => ?_, course.paths input node⟩⟩
  exact course.known input node led (outside node led)

private theorem fileAt?_of_course (lawful : view.IsLawful system)
    (apart : IsApart view arguments tree)
    (course : Course view system arguments.outdir tree opens progress) {input : Raw}
    (member : input ∈ arguments.inputs) :
    view.fileAt? input progress.tree = view.fileAt? input tree := by
  obtain ⟨outside, same⟩ := inputs_of_course asked lawful apart course member
  unfold View.fileAt?
  rw [← same]
  cases led : view.leadsTo input progress.tree with
  | none => rfl
  | some node => exact course.others node (outside node led)

private theorem nodup_of_course (tidy : IsTidy view arguments.outdir tree)
    (course : Course view system arguments.outdir tree opens progress) : progress.opened.Nodup :=
  course.nodup tidy (fun _ member => (exists_work asked member).elim fun _ known => known.2.2)
    (nodup_names asked)

end Runs

/-- A run keeps the accounts. -/
private theorem Accounts.run (lawful : view.IsLawful system)
    (accounts : Accounts view system yaml arguments clock IsLeft before) (later : clock < time)
    {isLazy : Bool} (read : CommandLine.read words = .ok (.run { arguments with lazy := isLazy }))
    (stamped : IsStamped view system clock time (runOn system yaml before words) after) :
    Accounts view system yaml arguments time (leftAfter IsLeft (runOn system yaml before words))
      after := by
  obtain ⟨opens, course, asked⟩ := exists_course yaml lawful read accounts.directory
  generalize runOn system yaml before words = upshot at stamped course ⊢
  have tidy : IsTidy view arguments.outdir upshot.tree := course.tidy accounts.tidy
  have distinct : upshot.opened.Nodup := nodup_of_course asked accounts.tidy course
  have inputs (input : Raw) (member : input ∈ arguments.inputs) :
      (∀ node, view.leadsTo input upshot.tree = some node → node ∉ upshot.opened) ∧
        view.leadsTo input upshot.tree = view.leadsTo input before :=
    inputs_of_course asked lawful accounts.apart course member
  have others (node : Node) (outside : node ∉ upshot.opened) :
      view.file? node after = view.file? node before :=
    (stamped.others node outside).trans (course.others node outside)
  have files (input : Raw) (member : input ∈ arguments.inputs) :
      view.fileAt? input after = view.fileAt? input before := by
    obtain ⟨outside, same⟩ := inputs input member
    unfold View.fileAt?
    rw [stamped.leadsTo, ← same]
    cases led : view.leadsTo input upshot.tree with
    | none => rfl
    | some node => exact others node (outside node led)
  refine ⟨stamped.directories _ (course.directories _ accounts.directory), ⟨?_, ?_⟩, ?_, ?_⟩
  · intro name plain taken
    obtain ⟨node, led, isFile⟩ := tidy.files name plain (stamped.taken _ taken)
    refine ⟨node, (stamped.leadsTo _).trans led, ?_⟩
    by_cases opened : node ∈ upshot.opened
    · obtain ⟨⟨contents, stamp⟩, file⟩ := Option.isSome_iff_exists.mp isFile
      obtain ⟨written, stampedFile, -⟩ := stamped.opened node opened contents stamp file
      exact Option.isSome_of_eq_some stampedFile
    · rwa [stamped.others node opened]
  · intro first second node firstPlain secondPlain there again
    rw [stamped.leadsTo] at there again
    exact tidy.distinct first second node firstPlain secondPlain there again
  · intro input member name plain node led reached
    obtain ⟨outside, same⟩ := inputs input member
    rw [stamped.leadsTo] at led reached
    have untouched := outside node led
    rw [same] at led
    exact accounts.apart input member name plain node led (course.known _ node reached untouched)
  · intro name plain node led
    rw [stamped.leadsTo] at led
    by_cases opened : node ∈ upshot.opened
    · have members : upshot.opened = opens.map Prod.snd := course.opened
      obtain ⟨⟨output, _⟩, listed, rfl⟩ := List.mem_map.mp (members ▸ opened)
      obtain ⟨reached, isFile, holds⟩ := course.each output _ listed
      obtain ⟨work, prepared, member, outputPlain⟩ := exists_work asked listed
      obtain rfl := tidy.distinct _ _ _ outputPlain plain reached led
      obtain ⟨⟨contents, stamp⟩, file⟩ := Option.isSome_iff_exists.mp isFile
      obtain ⟨written, stampedFile, late, early⟩ := stamped.opened _ opened contents stamp file
      refine ⟨contents, written, stampedFile, early, (holds distinct).imp .inl fun held => ?_⟩
      obtain ⟨text, again, spelt, held⟩ := held
      obtain ⟨rfl, -⟩ := Prod.mk.inj (Option.some.inj (file.symm.trans held))
      exact ⟨before, isLazy, work, output, text, prepared, member, rfl, spelt, rfl,
        fun input given => .inl (files input given)⟩
    · have was := course.known _ node led opened
      obtain ⟨contents, written, file, early, known⟩ := accounts.files name plain node was
      refine ⟨contents, written, (others node opened).trans file, by omega, ?_⟩
      refine known.imp (fun left => .inr ⟨left, opened⟩) fun known => ?_
      exact known.edit early fun input given => .inl (files input given)

/-- **In every history, of every file of the output directory it is known where it is from**, unless
it was left unfinished. -/
theorem accounts_of_history (lawful : view.IsLawful system)
    (history : History view system yaml arguments tree clock IsLeft) :
    Accounts view system yaml arguments clock IsLeft tree := by
  induction history with
  | start directory empty =>
      refine ⟨directory, ⟨fun name plain taken => absurd taken (empty name plain), ?_⟩, ?_, ?_⟩
      · intro first second node plain _ led _
        exact absurd (lawful.isTaken_of_leadsTo led) (empty first plain)
      · intro input _ name plain node _ led
        exact absurd (lawful.isTaken_of_leadsTo led) (empty name plain)
      · intro name plain node led
        exact absurd (lawful.isTaken_of_leadsTo led) (empty name plain)
  | edit history later edited accounts => exact accounts.edit later edited
  | run history later read stamped accounts => exact accounts.run lawful later read stamped

/-! ### What a lazy run leaves alone -/

omit [Foreign System] in
private theorem not_isAfter_of_youngerOn {inputs : List Raw} {written : Stamp}
    (none : youngerOn system written tree inputs = .ok false) :
    ∀ input ∈ inputs, ∃ status, system.status input tree = .ok status ∧
      status.stamp.isAfter written = false := by
  induction inputs with
  | nil => exact nofun
  | cons input rest ih =>
      obtain ⟨status, told, none⟩ := Outcome.bind_eq_ok.mp none
      split at none
      · cases none
      · next older =>
          refine List.forall_mem_cons.mpr ⟨⟨status, told, ?_⟩, ih none⟩
          exact Bool.eq_false_iff.mpr older

omit [Foreign System] in
/-- No input is younger than what a lazy run leaves alone. -/
private theorem current_of_due (lawful : view.IsLawful system) {inputs : List Raw} {path : Raw}
    {isLazy : Bool} (current : due system isLazy inputs path tree = .ok false) :
    ∃ node, view.leadsTo path tree = some node ∧ ∀ contents written,
      view.file? node tree = some (contents, .time written) → ∀ input ∈ inputs,
        ∀ other edited, view.fileAt? input tree = some (other, .time edited) →
          edited ≤ written := by
  unfold due at current
  split at current
  · cases current
  obtain ⟨status, told, none⟩ := Outcome.bind_eq_ok.mp current
  obtain ⟨node, led⟩ := lawful.leadsTo_of_status told
  refine ⟨node, led, fun contents written file input member other edited found => ?_⟩
  obtain ⟨_, again, stamp⟩ := lawful.status_ok led
  obtain rfl := Except.ok.inj (told.symm.trans again)
  obtain ⟨inputStatus, inputTold, older⟩ := not_isAfter_of_youngerOn none input member
  obtain ⟨inputNode, inputLed, inputFile⟩ := Option.bind_eq_some_iff.mp found
  obtain ⟨_, inputAgain, inputStamp⟩ := lawful.status_ok inputLed
  obtain rfl := Except.ok.inj (inputTold.symm.trans inputAgain)
  rw [stamp _ _ file, inputStamp _ _ inputFile] at older
  exact Int.not_lt.mp (of_decide_eq_false older)

section Delivered

variable {opens : List (Output × Node)} {fates : List (Output × Bool)}
  {progress : Progress Tree Node} {isLazy : Bool} {output : Output}

omit [Foreign System] [Foreign Document] in
/-- What is left alone is not opened for another output. -/
private theorem not_mem_of_left {outdir : Raw} (tidy : IsTidy view outdir tree)
    (prepared : prepare system yaml arguments tree = .ok work)
    (whole : fates.map Prod.fst = work.outputs) {earlier : List (Output × Node)}
    (opened : opens.map Prod.fst = (fates.filter Prod.snd).map Prod.fst) (start : earlier <+: opens)
    (course : Course view system outdir tree earlier progress)
    (left : (output, false) ∈ fates)
    (led : view.leadsTo (Path.join outdir output.name) progress.tree = some node) :
    node ∉ progress.opened := by
  obtain ⟨names, plain⟩ := names_of_prepare prepared
  have listed (fate : Output × Bool) (member : fate ∈ fates) : fate.1 ∈ work.outputs :=
    whole ▸ List.mem_map_of_mem member
  intro member
  obtain ⟨⟨other, _⟩, present, rfl⟩ := List.mem_map.mp (course.opened ▸ member)
  have due : other ∈ (fates.filter Prod.snd).map Prod.fst :=
    opened ▸ List.mem_map_of_mem (start.subset present)
  obtain ⟨⟨_, isDue⟩, dueFate, rfl⟩ := List.mem_map.mp due
  obtain ⟨fate, isTrue⟩ := List.mem_filter.mp dueFate
  have reached := (course.each _ _ present).leadsTo
  have same := (course.tidy tidy).distinct _ _ _ (plain _ (listed _ fate)) (plain _ (listed _ left))
    reached led
  obtain rfl := List.inj_on_of_nodup_map names (listed _ fate) (listed _ left) same
  have once : (fates.map Prod.fst).Nodup := whole ▸ names.of_map
  obtain ⟨-, rfl⟩ := Prod.mk.inj (List.inj_on_of_nodup_map once fate left rfl)
  cases isTrue

end Delivered

omit [Foreign System] [Foreign Document] in
/-- What a lazy run leaves alone has the text that it would write, unless it was left unfinished. -/
private theorem Accounts.holds_of_left (lawful : view.IsLawful system)
    (accounts : Accounts view system yaml arguments clock IsLeft tree)
    (unconfigured : arguments.config.getD [] = []) {isLazy asksLazily : Bool}
    (prepared : prepare system yaml { arguments with lazy := isLazy } tree = .ok work)
    {output : Output} (member : output ∈ work.outputs) {reached : Tree}
    (current : due system asksLazily arguments.inputs
      (Path.join arguments.outdir output.name) reached =
      .ok false)
    (led : view.leadsTo (Path.join arguments.outdir output.name) reached = some node)
    (before : view.leadsTo (Path.join arguments.outdir output.name) tree = some node)
    (file : view.file? node reached = view.file? node tree)
    (inputs : ∀ input ∈ arguments.inputs, view.fileAt? input reached = view.fileAt? input tree)
    (finished : ¬IsLeft node) : Holds view output node tree := by
  obtain ⟨names, plain⟩ := names_of_prepare prepared
  obtain ⟨contents, written, held, -, known⟩ :=
    accounts.files output.name (plain output member) node before
  obtain ⟨origin, wasLazy, earlier, other, text, was, listed, named, spelt, rfl, since⟩ :=
    known.resolve_left finished
  obtain ⟨_, same, younger⟩ := current_of_due lawful current
  obtain rfl := Option.some.inj (led.symm.trans same)
  have unchanged : ∀ input ∈ arguments.inputs,
      view.fileAt? input tree = view.fileAt? input origin := by
    intro input given
    refine (since input given).resolve_right fun edited => ?_
    obtain ⟨inputContents, stamp, -, found, -⟩ := fileAt?_of_prepare lawful prepared input given
    obtain ⟨time, rfl, late⟩ := edited _ _ found
    have early := younger _ _ (file.trans held) input given _ _ ((inputs input given).trans found)
    omega
  have outputs := outputs_of_same_inputs lawful unconfigured was prepared unchanged
  rw [outputs] at member names
  obtain rfl := List.inj_on_of_nodup_map names listed member named
  exact ⟨text, .time written, spelt, held⟩

/-- The outputs of a run that ends well hold their texts, but for those that it left alone. -/
private theorem exists_arrival (lawful : view.IsLawful system)
    (read : CommandLine.read words = .ok (.run arguments))
    (there : system.isDirectory arguments.outdir tree = true)
    (ended : (runOn system yaml tree words).ending.status? = some 0) :
    ∃ work fates opens, prepare system yaml arguments tree = .ok work ∧
      fates.map Prod.fst = work.outputs ∧
      Arrival view system work.isLazy arguments.inputs arguments.outdir tree fates opens
        (runOn system yaml tree words).progress := by
  obtain ⟨work, after, prepared, delivered, same⟩ := delivered_of_status read ended
  rw [same]
  have unmade := lawful.makeDirectories_of_there there
  have delivery := delivery Document system arguments work { tree }
  rw [delivered] at delivery
  cases delivery with
  | done made emitted summarized =>
      rw [made] at unmade
      obtain rfl := unmade
      obtain ⟨fates, opens, whole, arrival⟩ :=
        arrival_of_emitAll lawful (names_of_prepare prepared).2 rfl rfl emitted
      exact ⟨work, fates, opens, prepared, whole, arrival.settled, arrival.opened,
        arrival.course.congr rfl rfl rfl, arrival.left⟩

omit [Foreign System] [Foreign Document] in
/-- An output that was due is in its file. -/
private theorem holds_of_due {opens : List (Output × Node)} {fates : List (Output × Bool)}
    {progress : Progress Tree Node} {isLazy : Bool} {inputs : List Raw} {outdir : Raw}
    (arrival : Arrival view system isLazy inputs outdir tree fates opens progress)
    (distinct : progress.opened.Nodup) {output : Output} (due : (output, true) ∈ fates) :
    ∃ node, view.leadsTo (Path.join outdir output.name) progress.tree = some node ∧
      Holds view output node progress.tree := by
  have opened : output ∈ opens.map Prod.fst := by
    rw [arrival.opened]
    exact List.mem_map_of_mem (List.mem_filter.mpr ⟨due, rfl⟩)
  obtain ⟨⟨_, node⟩, listed, rfl⟩ := List.mem_map.mp opened
  obtain ⟨led, -, holds⟩ := arrival.course.each _ node listed
  refine ⟨node, led, (holds distinct).resolve_left fun unfinished => ?_⟩
  rw [arrival.settled] at unfinished
  cases unfinished

/-- **After a lazy run that ends well, every output has the text that a run would give it now**,
unless a run that was broken off has left it unfinished. That is what a full run that ends well
gives it. -/
theorem holds_of_lazy_run (lawful : view.IsLawful system)
    (history : History view system yaml arguments tree clock IsLeft)
    (unconfigured : arguments.config.getD [] = []) {lazyWords fullWords : List Raw}
    (lazyRead : CommandLine.read lazyWords = .ok (.run { arguments with lazy := true }))
    (fullRead : CommandLine.read fullWords = .ok (.run { arguments with lazy := false }))
    (lazyEnded : (runOn system yaml tree lazyWords).ending.status? = some 0) :
    ∃ work, prepare system yaml { arguments with lazy := true } tree = .ok work ∧
      ∀ output ∈ work.outputs,
        (∃ node, view.leadsTo (Path.join arguments.outdir output.name)
            (runOn system yaml tree lazyWords).tree = some node ∧
          (¬leftAfter IsLeft (runOn system yaml tree lazyWords) node →
            Holds view output node (runOn system yaml tree lazyWords).tree)) ∧
        ((runOn system yaml tree fullWords).ending.status? = some 0 →
          ∃ node, view.leadsTo (Path.join arguments.outdir output.name)
              (runOn system yaml tree fullWords).tree = some node ∧
            Holds view output node (runOn system yaml tree fullWords).tree) := by
  have accounts := accounts_of_history lawful history
  obtain ⟨work, fates, opens, prepared, whole, arrival⟩ :=
    exists_arrival lawful lazyRead accounts.directory lazyEnded
  refine ⟨work, prepared, fun output member => ⟨?_, fun fullEnded => ?_⟩⟩
  · generalize runOn system yaml tree lazyWords = upshot at arrival
    have asked := arrival.sublist whole
    have distinct := nodup_of_course (.inr ⟨work, prepared, asked⟩) accounts.tidy arrival.course
    obtain ⟨⟨_, isDue⟩, fate, rfl⟩ := List.mem_map.mp (whole ▸ member)
    cases isDue with
    | true =>
        obtain ⟨node, led, holds⟩ := holds_of_due arrival distinct fate
        exact ⟨node, led, fun _ => holds⟩
    | false =>
        obtain ⟨earlier, reached, start, course, current⟩ := arrival.left _ fate
        obtain ⟨node, led, -⟩ := current_of_due lawful current
        have untouched := not_mem_of_left accounts.tidy prepared whole arrival.opened start course
          fate led
        have before := course.known _ node led untouched
        have after := arrival.course.paths _ node before
        have outside := not_mem_of_left accounts.tidy prepared whole arrival.opened List.prefix_rfl
          arrival.course fate after
        refine ⟨node, after, fun finished => ?_⟩
        have held : Holds view _ node tree := accounts.holds_of_left lawful unconfigured prepared
          member current led before (course.others node untouched)
          (fun input given => fileAt?_of_course
            (.inr ⟨work, prepared, (start.sublist.map Prod.fst).trans asked⟩) lawful accounts.apart
            course given)
          fun left => finished (.inr ⟨left, outside⟩)
        obtain ⟨text, stamp, spelt, file⟩ := held
        exact ⟨text, stamp, spelt, (arrival.course.others node outside).trans file⟩
  · obtain ⟨fullWork, fates, opens, fullPrepared, whole, arrival⟩ :=
      exists_arrival lawful fullRead accounts.directory fullEnded
    have distinct := nodup_of_course (.inr ⟨fullWork, fullPrepared, arrival.sublist whole⟩)
      accounts.tidy arrival.course
    have outputs := outputs_of_same_inputs lawful unconfigured fullPrepared prepared
      fun _ _ => rfl
    obtain ⟨⟨_, isDue⟩, fate, rfl⟩ := List.mem_map.mp (whole.trans outputs.symm ▸ member)
    cases isDue with
    | true => exact holds_of_due arrival distinct fate
    | false =>
        -- a full run leaves nothing alone
        obtain ⟨_, _, _, _, current⟩ := arrival.left _ fate
        rw [isLazy_of_prepare (by exact unconfigured) fullPrepared] at current
        cases current

/-! ### Histories of file trees -/

section Trees

open FileTree (Place)

private theorem setStamp_file (stamp : Stamp) {node : Place} {tree : FileTree}
    (isFile : (tree.file? node).isSome) :
    FileTree.Alike tree (tree.setStamp stamp node) ∧
      (∀ text old, tree.file? node = some (text, old) →
        (tree.setStamp stamp node).file? node = some (text, stamp)) ∧
      ∀ other ≠ node, (tree.setStamp stamp node).file? other = tree.file? other := by
  obtain ⟨⟨text, old⟩, file⟩ := Option.isSome_iff_exists.mp isFile
  have found : tree.find? node = some (.file text old) := by
    unfold FileTree.file? at file
    split at file
    · next same =>
        cases file
        exact same
    · cases file
  have below : node ≠ [] := by
    rintro rfl
    cases found
  have set : tree.setStamp stamp node = tree.put node (.file text stamp) := by
    rw [FileTree.setStamp, found]
    rfl
  rw [set]
  refine ⟨fun other => ?_, fun words old same => ?_, fun other apart => ?_⟩
  · rw [FileTree.find?_put below]
    split
    · next same =>
        rw [same, found]
        rfl
    · rfl
  · obtain ⟨rfl, -⟩ := Prod.mk.inj (Option.some.inj (file.symm.trans same))
    rw [FileTree.file?, FileTree.find?_put below, if_pos rfl]
  · rw [FileTree.file?, FileTree.find?_put below, if_neg apart, FileTree.file?]

/-- Giving stamps to files changes their stamps only. -/
private theorem foldl_setStamp (stamp : Stamp) {nodes : List Place} {tree : FileTree}
    (files : ∀ node ∈ nodes, (tree.file? node).isSome) :
    let after := nodes.foldl (fun tree place => tree.setStamp stamp place) tree
    FileTree.Alike tree after ∧
      (∀ node ∈ nodes, ∀ text old, tree.file? node = some (text, old) →
        after.file? node = some (text, stamp)) ∧
      ∀ node ∉ nodes, after.file? node = tree.file? node := by
  induction nodes generalizing tree with
  | nil => exact ⟨.refl tree, nofun, fun _ _ => rfl⟩
  | cons node nodes ih =>
      obtain ⟨isFile, rest⟩ := List.forall_mem_cons.mp files
      obtain ⟨⟨text, old⟩, file⟩ := Option.isSome_iff_exists.mp isFile
      obtain ⟨alike, set, others⟩ := setStamp_file stamp isFile
      obtain ⟨later, sets, leaves⟩ := @ih (tree.setStamp stamp node) fun other member => by
        by_cases same : other = node
        · rw [same, set text old file]
          rfl
        · rw [others other same]
          exact rest other member
      refine ⟨alike.trans later, fun other member words before found => ?_, fun other outside => ?_⟩
      · by_cases same : other = node
        · subst same
          by_cases again : other ∈ nodes
          · exact sets other again words stamp (set words before found)
          · exact (leaves other again).trans (set words before found)
        · refine sets other ((List.mem_cons.mp member).resolve_left same) words before ?_
          exact (others other same).trans found
      · obtain ⟨apart, beyond⟩ := not_or.mp (List.mem_cons.not.mp outside)
        exact (leaves other beyond).trans (others other apart)

/-- The tree after a run, with a time for the files that were opened, is as such a tree has to be.
-/
theorem isStamped_stamped {outcome : Outcome} (later : clock < time)
    (files : ∀ node ∈ outcome.opened, (outcome.tree.file? node).isSome) :
    IsStamped FileTree.view FileTree.system clock time outcome (outcome.stamped time) := by
  obtain ⟨alike, opened, others⟩ := foldl_setStamp (.time time) files
  constructor
  · intro node member contents stamp file
    exact ⟨time, opened node member contents stamp file, later, Int.le_refl time⟩
  · exact others
  · exact fun path => FileTree.leadsTo_of_alike alike
  · exact fun path => FileTree.isTaken_of_extends alike.symm.extends
  · exact fun path => FileTree.isDirectory_of_extends alike.extends

/-- A history of a file tree begins with a directory without entries. -/
private theorem history_of_empty {tree : FileTree} {place : Place} {outdir : String} (clock : Int)
    (given : arguments.outdir = Raw.ofString outdir)
    (directory : FileTree.system.isDirectory arguments.outdir tree = true)
    (led : tree.follow FileTree.linkLimit [] (FileTree.namesOf outdir ++ ["."]) =
      .ok (.found place))
    (empty : ∀ name, tree.find? (place ++ [name]) = none) :
    History FileTree.view FileTree.system Wireform.Document.yaml arguments tree clock
      fun _ => False := by
  refine .start directory fun name plain => ?_
  rw [given]
  exact FileTree.not_isTaken_join led empty plain

/-- A run goes on with a history of a file tree. -/
private theorem history_of_stamped {tree : FileTree} (words : List String) (isLazy : Bool)
    {IsLeft : Place → Prop}
    (history :
      History FileTree.view FileTree.system Wireform.Document.yaml arguments tree clock IsLeft)
    (later : clock < time)
    (read : CommandLine.read (words.map Raw.ofString) =
      .ok (.run { arguments with lazy := isLazy }))
    (files : ∀ node ∈ (run tree words).opened, ((run tree words).tree.file? node).isSome) :
    History FileTree.view FileTree.system Wireform.Document.yaml arguments
      ((run tree words).stamped time) time (leftAfter IsLeft (run tree words)) :=
  history.run later read (isStamped_stamped later files)

end Trees

/-- After an input was edited and a run has written the Python module, a lazy run passes it. -/
theorem holds_of_lazy_run_point :
    let edited : FileTree := ⟨[(["a.lcm"], .file "struct a \x7b int32_t x; \x7d" (.time 2)),
      (["gen"], .directory (.time 1))]⟩
    let arguments : Arguments :=
      ⟨[Raw.ofString "a.lcm"], Raw.ofString "/gen", none, none, false, false, false⟩
    let tree := (run edited ["a.lcm", "--outdir", "/gen"]).stamped 3
    let lazyRun := run tree ["a.lcm", "--outdir", "/gen", "--lazy"]
    (∃ IsLeft,
        History FileTree.view FileTree.system Wireform.Document.yaml arguments tree 3 IsLeft ∧
        ∀ place, ¬leftAfter IsLeft lazyRun place) ∧
      lazyRun.ending.status? = some 0 ∧ lazyRun.opened = [] ∧
      ∃ work, prepare FileTree.system Wireform.Document.yaml { arguments with lazy := true } tree =
          .ok work ∧ work.outputs.length = 1 ∧
        ∀ output ∈ work.outputs, ∃ place, Holds FileTree.view output place lazyRun.tree := by
  intro edited arguments tree lazyRun
  let start : FileTree := ⟨[(["a.lcm"], .file "struct a \x7b \x7d" (.time 1)),
    (["gen"], .directory (.time 1))]⟩
  have lawful := FileTree.isLawful
  have empty (name : String) : start.find? (["gen"] ++ [name]) = none := by
    simp [start, FileTree.find?, List.lookup_cons]
  have begun : History FileTree.view FileTree.system Wireform.Document.yaml arguments start 1
      fun _ => False :=
    history_of_empty 1 rfl (by decide +kernel) (by decide +kernel) empty
  have free (name : String) (plain : IsPlain name) :
      FileTree.leadsTo (Path.join arguments.outdir name) start = none := by
    refine Option.eq_none_iff_forall_ne_some.mpr fun node led => ?_
    refine FileTree.not_isTaken_join ?_ empty plain (lawful.isTaken_of_leadsTo led)
    decide +kernel
  have alike : FileTree.Alike start edited := by
    intro place
    simp only [FileTree.find?, List.lookup_cons, start, edited]
    split
    · rfl
    · cases place == ["a.lcm"] <;> rfl
  have changed : History FileTree.view FileTree.system Wireform.Document.yaml arguments edited 2
      fun _ => False := by
    refine begun.edit (by decide) ⟨?_, ?_, ?_, ?_, ?_, ?_⟩
    · intro input member
      obtain rfl := List.mem_singleton.mp member
      refine .inr fun contents stamp found => ⟨2, ?_, by decide, by decide⟩
      have file : FileTree.view.fileAt? (Raw.ofString "a.lcm") edited =
          some ("struct a \x7b int32_t x; \x7d", .time 2) := by decide +kernel
      exact (Prod.mk.inj (Option.some.inj (found.symm.trans file))).2
    · decide +kernel
    · exact fun name _ => FileTree.isTaken_of_extends alike.symm.extends
    · exact fun name _ => FileTree.leadsTo_of_alike alike
    · intro name plain node led
      cases (free name plain).symm.trans led
    · intro input _ name plain node _ led
      cases ((FileTree.leadsTo_of_alike alike).trans (free name plain)).symm.trans led
  have written := history_of_stamped ["a.lcm", "--outdir", "/gen"] false changed
    (show (2 : Int) < 3 by decide) (by decide +kernel) (by decide +kernel)
  obtain ⟨finished, ended⟩ :
      ((run edited ["a.lcm", "--outdir", "/gen"]).unfinished = none ∧
        lazyRun.unfinished = none) ∧
      lazyRun.ending.status? = some 0 ∧ lazyRun.opened = [] := by decide +kernel
  have none (place : FileTree.Place) : ¬leftAfter (leftAfter (fun _ => False)
      (run edited ["a.lcm", "--outdir", "/gen"])) lazyRun place := by
    simp [leftAfter, finished]
  have lazyRead : CommandLine.read (["a.lcm", "--outdir", "/gen", "--lazy"].map Raw.ofString) =
      .ok (.run { arguments with lazy := true }) := by decide +kernel
  have fullRead : CommandLine.read (["--outdir=/gen", "a.lcm"].map Raw.ofString) =
      .ok (.run { arguments with lazy := false }) := by decide +kernel
  obtain ⟨work, prepared, outputs⟩ :=
    holds_of_lazy_run lawful written rfl lazyRead fullRead ended.1
  have count : (prepare FileTree.system Wireform.Document.yaml { arguments with lazy := true }
      tree).map (·.outputs.length) = .ok 1 := by decide +kernel
  refine ⟨⟨_, written, none⟩, ended.1, ended.2, work, prepared, ?_, fun output member => ?_⟩
  · rw [prepared] at count
    exact Except.ok.inj count
  · obtain ⟨⟨place, -, holds⟩, -⟩ := outputs output member
    exact ⟨place, holds (none place)⟩

/-- After a run has failed on the name of a struct, a lazy run passes the module that was left
empty, and ends well where a full run fails. -/
theorem empty_module_passed :
    let start : FileTree := ⟨[(["a.lcm"], .file "struct for \x7b int32_t x; \x7d" (.time 1)),
      (["gen"], .directory (.time 1))]⟩
    let arguments : Arguments :=
      ⟨[Raw.ofString "a.lcm"], Raw.ofString "gen", none, none, false, true, false⟩
    let tree := (run start ["a.lcm", "--outdir", "gen", "--matlab"]).stamped 2
    let lazyRun := run tree ["a.lcm", "--outdir", "gen", "--matlab", "--lazy"]
    let fullRun := run tree ["a.lcm", "--outdir", "gen", "--matlab"]
    (∃ IsLeft,
        History FileTree.view FileTree.system Wireform.Document.yaml arguments tree 2 IsLeft) ∧
      lazyRun.ending.status? = some 0 ∧ fullRun.ending.status? = some 1 ∧
      lazyRun.tree.text? ["gen", "lcmtypes.py"] = some "" ∧
      (lazyRun.tree.text? ["gen", "for_new.m"]).isSome = true ∧
      fullRun.tree.text? ["gen", "for_new.m"] = none := by
  intro start arguments tree lazyRun fullRun
  have empty (name : String) : start.find? (["gen"] ++ [name]) = none := by
    simp [start, FileTree.find?, List.lookup_cons]
  have begun : History FileTree.view FileTree.system Wireform.Document.yaml arguments start 1
      fun _ => False :=
    history_of_empty 1 rfl (by decide +kernel) (by decide +kernel) empty
  have failed := history_of_stamped ["a.lcm", "--outdir", "gen", "--matlab"] false begun
    (show (1 : Int) < 2 by decide) (by decide +kernel) (by decide +kernel)
  exact ⟨⟨_, failed⟩, by decide +kernel⟩

end Wireform.Generator
