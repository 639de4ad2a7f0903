import Wireform.Proofs.CommandLine.Switches
import Wireform.Proofs.FileTree.PathNames
import Wireform.Proofs.Generator.Laziness

/-! # Lazy runs as restrictions

A lazy run is the full run restricted to the files that are due
(`Wireform.Generator.restricts_of_full_run`): those that are not there, or that are older than some
input. Each decision is made on the tree that the files written before have left, but where no two
outputs lead to one file and none is an input, what is due in the tree that the run begins with is
due when its turn comes. The summary does not see which texts were asked for: it finds every
fingerprint by itself.

That a lazy run ends well is known from the full run, which has written every output, where the
contents of files have no say in whether a file can be written
(`Wireform.FileSystem.View.IsRoomy`).
-/

namespace Wireform.Generator

open FileSystem (View)
open Wireform.Path (IsPlain)
open Text (Raw)

variable {Tree System Node Contents Object Document : Type} {view : View Tree Node Contents}
  {system : FileSystem Tree System Node} {outdir : Raw} {base tree : Tree} {inputs : List Raw}
  {output : Output} {node : Node}

/-- Whether a file is to be written by a lazy run: it is not there, or older than an input. -/
def isDue (view : View Tree Node Contents) (inputs : List Raw) (tree : Tree) (node : Node) : Bool :=
  match view.file? node tree with
  | none => true
  | some (_, written) =>
      inputs.any fun input => (view.fileAt? input tree).any fun file => file.2.isAfter written

/-- The line about an output. -/
def fateLine (isWritten : Bool) (path : String) : String :=
  (if isWritten then "  wrote " else "  skipped ") ++ path

private theorem emissionLine_eq_some {isWritten : Bool} {path : Raw} {line : String}
    (spelt : (emissionLine isWritten path).text? = some line) :
    ∃ text, path = Raw.ofString text ∧ line = fateLine isWritten text := by
  obtain ⟨before, after, first, second, rfl⟩ := Raw.text?_append_eq_some spelt
  obtain rfl := Option.some.inj ((Raw.text?_ofString _).symm.trans first)
  exact ⟨after, Raw.text?_eq_some_iff.mp second, rfl⟩

private theorem emissionLine_ofString (isWritten : Bool) (path : String) :
    (emissionLine isWritten (Raw.ofString path)).text? = some (fateLine isWritten path) := by
  rw [Raw.text?_eq_some_iff, emissionLine, Raw.ofString, Raw.ofString, Raw.ofString, fateLine,
    String.toList_append, List.map_append]

/-! ### What is due -/

/-- The inputs are files that a run has not touched. -/
private def AreKept (view : View Tree Node Contents) (inputs : List Raw) (base tree : Tree) :
    Prop :=
  ∀ input ∈ inputs, ∃ node contents stamp, view.leadsTo input tree = some node ∧
    view.file? node tree = some (contents, stamp) ∧
    view.fileAt? input base = some (contents, stamp)

private theorem youngerOn_eq (lawful : view.IsLawful system) (written : Stamp)
    (kept : AreKept view inputs base tree) :
    youngerOn system written tree inputs =
      .ok (inputs.any fun input =>
        (view.fileAt? input base).any fun file => file.2.isAfter written) := by
  induction inputs with
  | nil => rfl
  | cons input rest ih =>
      obtain ⟨⟨node, contents, stamp, led, file, before⟩, later⟩ := List.forall_mem_cons.mp kept
      obtain ⟨status, told, same⟩ := lawful.status_ok led
      rw [youngerOn, told, List.any_cons, before]
      change (if status.stamp.isAfter written then _ else _) = _
      rw [same contents stamp file, ih later, Option.any_some]
      cases stamp.isAfter written <;> rfl

/-- Whether an output is due is decided by its file. -/
private theorem due_eq_isDue (lawful : view.IsLawful system) (kept : AreKept view inputs base tree)
    (path : Raw) (node : Node)
    (missing : view.leadsTo path tree = none → view.file? node base = none)
    (there : ∀ led, view.leadsTo path tree = some led →
      led = node ∧ (view.file? node tree).isSome ∧ view.file? node tree = view.file? node base) :
    due system true inputs path tree = .ok (isDue view inputs base node) := by
  cases led : view.leadsTo path tree with
  | none =>
      have absent : system.isPresent path tree = false := by
        cases told : system.status path tree with
        | error fault =>
            rw [FileSystem.isPresent, told]
            rfl
        | ok status =>
            obtain ⟨other, found⟩ := lawful.leadsTo_of_status told
            cases led.symm.trans found
      rw [due, if_pos (by rw [absent]; rfl), isDue, missing led]
  | some other =>
      obtain ⟨rfl, isFile, same⟩ := there other led
      obtain ⟨⟨contents, stamp⟩, file⟩ := Option.isSome_iff_exists.mp isFile
      obtain ⟨status, told, stamped⟩ := lawful.status_ok led
      have present : system.isPresent path tree = true := by
        rw [FileSystem.isPresent, told]
        rfl
      rw [due, if_neg (by rw [present]; decide), told, isDue, ← same, file]
      change youngerOn system status.stamp tree inputs = _
      rw [stamped contents stamp file]
      exact youngerOn_eq lawful stamp kept

/-! ### One output -/

section Emitting

variable [Foreign System] (Document : Type) {progress : Progress Tree Node} {path text : String}
  {opened filled : Tree}

/-- An output that is not due is passed. -/
private theorem emit_of_current (spelt : Path.join outdir output.name = Raw.ofString path)
    (current : due system true inputs (Path.join outdir output.name) progress.tree = .ok false) :
    emit (filesOn system) true inputs outdir output progress =
      (.ok false (progress.shown (fateLine false path)) :
        EStateM.Result (Fault System Document) (Progress Tree Node) Bool) := by
  have emitted := emission Document system true inputs outdir output progress
  generalize emit (filesOn system) true inputs outdir output progress = result at emitted ⊢
  cases emitted with
  | unasked failed => cases failed.symm.trans current
  | unwritten due failed => cases due.symm.trans current
  | untold handled unspelt =>
      rw [spelt, emissionLine_ofString] at unspelt
      cases unspelt
  | told handled shown =>
      rw [spelt, emissionLine_ofString] at shown
      obtain rfl := Option.some.inj shown
      cases handled with
      | skipped current => rfl
      | written due done => cases due.symm.trans current

/-- An output that is due is written, if a file can be opened for it and take its text. -/
private theorem emit_of_due (spelt : Path.join outdir output.name = Raw.ofString path)
    (due : due system true inputs (Path.join outdir output.name) progress.tree = .ok true)
    (some : output.text = .ok text)
    (opens : system.openFile (Path.join outdir output.name) progress.tree = .ok node opened)
    (fills : system.write node text opened = .ok () filled) :
    emit (filesOn system) true inputs outdir output progress =
      (.ok true (((progress.opening node opened).finished filled).shown (fateLine true path)) :
        EStateM.Result (Fault System Document) (Progress Tree Node) Bool) := by
  have writes {result : EStateM.Result (Fault System Document) (Progress Tree Node) Unit}
      (writing : Writing system (Path.join outdir output.name) output progress result) :
      result = .ok () ((progress.opening node opened).finished filled) := by
    cases writing with
    | refused closed => cases closed.symm.trans opens
    | textless again none => cases none.symm.trans some
    | broken again other failed =>
        obtain ⟨rfl, rfl⟩ := EStateM.Result.ok.inj (again.symm.trans opens)
        obtain rfl := Except.ok.inj (other.symm.trans some)
        cases failed.symm.trans fills
    | written again other done =>
        obtain ⟨rfl, rfl⟩ := EStateM.Result.ok.inj (again.symm.trans opens)
        obtain rfl := Except.ok.inj (other.symm.trans some)
        obtain ⟨-, rfl⟩ := EStateM.Result.ok.inj (done.symm.trans fills)
        rfl
  have emitted := emission Document system true inputs outdir output progress
  generalize emit (filesOn system) true inputs outdir output progress = result at emitted ⊢
  cases emitted with
  | unasked failed => cases failed.symm.trans due
  | unwritten _ failed => cases writes failed
  | untold handled unspelt =>
      rw [spelt, emissionLine_ofString] at unspelt
      cases unspelt
  | told handled shown =>
      rw [spelt, emissionLine_ofString] at shown
      obtain rfl := Option.some.inj shown
      cases handled with
      | skipped current => cases current.symm.trans due
      | written _ done =>
          obtain ⟨-, rfl⟩ := EStateM.Result.ok.inj (writes done)
          rfl

end Emitting

/-! ### Two runs side by side -/

/-- A full run and a lazy run that have come to the same output: the lazy run has written the files
that are due, and both have told of all. -/
private structure Paired (view : View Tree Node Contents) (system : FileSystem Tree System Node)
    (alike : Tree → Tree → Prop) (inputs : List Raw) (outdir : Raw) (base : Tree)
    (opens : List (Output × Node)) (shown : List (String × Node))
    (full lazily : Progress Tree Node) : Prop where
  settled : full.unfinished = none ∧ lazily.unfinished = none
  fullCourse : Course view system outdir base opens full
  lazyCourse : Course view system outdir base
    (opens.filter fun pair => isDue view inputs base pair.2) lazily
  agree : alike full.tree lazily.tree
  nodes : shown.map Prod.snd = full.opened
  paths : ∀ path node, (path, node) ∈ shown →
    view.leadsTo (Raw.ofString path) full.tree = some node
  fullOutput : full.output = shownLines (shown.map fun entry => fateLine true entry.1)
  lazyOutput : lazily.output = shownLines
    (shown.map fun entry => fateLine (isDue view inputs base entry.2) entry.1)

section Pairing

variable {alike : Tree → Tree → Prop} {opens : List (Output × Node)}
  {shown : List (String × Node)} {full lazily fullAfter : Progress Tree Node}

/-- The lazy run has opened fewer files. -/
private theorem Paired.subset
    (paired : Paired view system alike inputs outdir base opens shown full lazily) :
    lazily.opened ⊆ full.opened := by
  rw [paired.lazyCourse.opened, paired.fullCourse.opened]
  exact (List.filter_sublist.map Prod.snd).subset

/-- The inputs are kept by a run that opens none of them. -/
private theorem areKept_of_course {progress : Progress Tree Node}
    (course : Course view system outdir base opens progress)
    (files : ∀ input ∈ inputs, ∃ node contents stamp, view.leadsTo input base = some node ∧
      view.file? node base = some (contents, stamp) ∧ node ∉ progress.opened) :
    AreKept view inputs base progress.tree := by
  intro input member
  obtain ⟨node, contents, stamp, led, file, outside⟩ := files input member
  refine ⟨node, contents, stamp, course.paths _ _ led, (course.others node outside).trans file, ?_⟩
  rw [View.fileAt?, led]
  exact file

private theorem opened_prefix_of_emitAll [Foreign System] {Document : Type} {isLazy : Bool}
    {outputs : List Output} {count : Nat}
    (run : emitAll (filesOn system) isLazy inputs outdir outputs full =
      (.ok count fullAfter : EStateM.Result (Fault System Document) (Progress Tree Node) Nat)) :
    full.opened <+: fullAfter.opened := by
  obtain ⟨fates, -, -, start⟩ := reached_of_emitAll (fun _ after => full.opened <+: after.opened)
    (fun fates output later whole reached isDue after start emitted => by
      cases emitted with
      | told handled spelt =>
          cases handled with
          | skipped current => exact start
          | written due done =>
              cases done
              exact start.trans (List.prefix_append _ _))
    List.prefix_rfl run
  exact start

/-- A run goes on with the file that it has opened last. -/
private theorem course_concat {progress after : Progress Tree Node} {last : Node}
    (course : Course view system outdir base opens progress)
    (more : Course view system outdir base (opens ++ [(output, last)]) after)
    (opened : after.opened = progress.opened ++ [node]) : last = node := by
  have whole : opens.map Prod.snd ++ [last] = opens.map Prod.snd ++ [node] := by
    rw [← course.opened, ← opened, more.opened, List.map_append, course.opened]
    rfl
  exact List.singleton_inj.mp (List.append_cancel_left whole)

private theorem shownLines_concat (lines : List String) (line : String) :
    shownLines (lines ++ [line]) = shownLines lines ++ line ++ "\n" := by
  rw [shownLines_append, String.append_assoc]
  simp [shownLines]

/-- What is told of an output more. -/
private theorem Paired.concat {path : String} {lazyAfter : Progress Tree Node}
    (paired : Paired view system alike inputs outdir base opens shown full lazily)
    (settled : fullAfter.unfinished = none ∧ lazyAfter.unfinished = none)
    (fullCourse : Course view system outdir base (opens ++ [(output, node)]) fullAfter)
    (lazyCourse : Course view system outdir base
      ((opens ++ [(output, node)]).filter fun pair => isDue view inputs base pair.2) lazyAfter)
    (agree : alike fullAfter.tree lazyAfter.tree)
    (spelt : Path.join outdir output.name = Raw.ofString path)
    (kept : view.KeepsPaths full.tree fullAfter.tree)
    (opened : fullAfter.opened = full.opened ++ [node])
    (fullOutput : fullAfter.output = full.output ++ fateLine true path ++ "\n")
    (lazyOutput : lazyAfter.output =
      lazily.output ++ fateLine (isDue view inputs base node) path ++ "\n") :
    Paired view system alike inputs outdir base (opens ++ [(output, node)])
      (shown ++ [(path, node)]) fullAfter lazyAfter where
  settled := settled
  fullCourse := fullCourse
  lazyCourse := lazyCourse
  agree := agree
  nodes := by rw [List.map_append, paired.nodes, opened]; rfl
  paths other led member := by
    rcases List.mem_append.mp member with before | last
    · exact kept _ _ (paired.paths other led before)
    · obtain ⟨rfl, rfl⟩ := Prod.mk.inj (List.mem_singleton.mp last)
      rw [← spelt]
      exact (fullCourse.each output led (List.mem_append_right _ List.mem_cons_self)).leadsTo
  fullOutput := by
    rw [fullOutput, paired.fullOutput, List.map_append, List.map_singleton, shownLines_concat]
  lazyOutput := by
    rw [lazyOutput, paired.lazyOutput, List.map_append, List.map_singleton, shownLines_concat]

variable (lawful : view.IsLawful system) (roomy : view.IsRoomy system alike)
include lawful roomy

/-- **One output side by side.** What the full run writes, the lazy run writes or leaves alone. -/
private theorem Paired.step [Foreign System] (Document : Type)
    (paired : Paired view system alike inputs outdir base opens shown full lazily)
    (plain : IsPlain output.name)
    (files : ∀ input ∈ inputs, ∃ node contents stamp, view.leadsTo input base = some node ∧
      view.file? node base = some (contents, stamp) ∧ node ∉ fullAfter.opened)
    (once : fullAfter.opened.Nodup) {isWritten : Bool}
    (emitted : Emission system false inputs (Path.join outdir output.name) output full
      (.ok isWritten fullAfter :
        EStateM.Result (Fault System Document) (Progress Tree Node) Bool)) :
    ∃ isDue lazyAfter opens shown,
      emit (filesOn system) true inputs outdir output lazily =
        (.ok isDue lazyAfter :
          EStateM.Result (Fault System Document) (Progress Tree Node) Bool) ∧
      Paired view system alike inputs outdir base opens shown fullAfter lazyAfter ∧
      isWritten = true ∧ fullAfter.opened.length = full.opened.length + 1 ∧
      lazyAfter.opened.length = lazily.opened.length + (if isDue then 1 else 0) := by
  have advanced := course_of_emission lawful plain paired.fullCourse paired.settled.1 emitted
  cases emitted with
  | @told _ _ line handled spelt =>
  cases handled with
  | skipped current => cases current
  | written due done =>
  cases done with
  | @written node opening filling text opened some filled =>
  obtain ⟨settled, node', course⟩ := advanced
  obtain rfl := course_concat paired.fullCourse course rfl
  obtain ⟨path, named, rfl⟩ := emissionLine_eq_some spelt
  have opens := lawful.openFile_ok opened
  have rewrites := (lawful.write_ok opens.isFile filled).1
  have kept : view.KeepsPaths full.tree filling := fun other led was =>
    (rewrites.leadsTo other).trans (opens.paths other led was)
  have newNode : node' ∉ full.opened := fun member =>
    (List.nodup_append.mp once).2.2 node' member node' (List.mem_singleton_self node') rfl
  have outsideLazy : node' ∉ lazily.opened := fun member => newNode (paired.subset member)
  have inputsKept : AreKept view inputs base lazily.tree := by
    refine areKept_of_course paired.lazyCourse fun input member => ?_
    obtain ⟨other, contents, stamp, led, file, outside⟩ := files input member
    exact ⟨other, contents, stamp, led, file,
      fun found => outside (List.mem_append_left _ (paired.subset found))⟩
  have leads := roomy.leadsTo paired.agree (Path.join outdir output.name)
  have missing (none : view.leadsTo (Path.join outdir output.name) lazily.tree = none) :
      view.file? node' base = .none := by
    rw [leads] at none
    rw [← paired.fullCourse.others node' newNode]
    exact opens.fresh none
  have decided := due_eq_isDue lawful inputsKept (Path.join outdir output.name) node' missing
    (fun led found => by
      rw [leads] at found
      obtain ⟨rfl, isFile⟩ := opens.found led found
      have same := paired.lazyCourse.others led outsideLazy
      rw [paired.fullCourse.others led newNode] at isFile
      exact ⟨rfl, same ▸ isFile, same⟩)
  cases dueNode : isDue view inputs base node' with
  | true =>
      rw [dueNode] at decided
      obtain ⟨lazyOpening, lazyFilling, lazyOpened, lazyFilled, agree⟩ :=
        roomy.both paired.agree opened filled
      have emitted := emit_of_due Document named decided some lazyOpened lazyFilled
      have lazyEmission := emission Document system true inputs outdir output lazily
      rw [emitted] at lazyEmission
      obtain ⟨lazySettled, last, lazyCourse⟩ :=
        course_of_emission lawful plain paired.lazyCourse paired.settled.2 lazyEmission
      obtain rfl := course_concat paired.lazyCourse lazyCourse rfl
      refine ⟨true, _, _, _, emitted,
        paired.concat ⟨settled, lazySettled⟩ course ?_ agree named kept
        rfl rfl ?_, rfl, List.length_append, List.length_append⟩
      · simpa only [List.filter_append, List.filter_cons, dueNode, ↓reduceIte, List.filter_nil]
          using lazyCourse
      · rw [dueNode]
        rfl
  | false =>
      rw [dueNode] at decided
      have emitted := emit_of_current Document named decided
      have led : view.leadsTo (Path.join outdir output.name) lazily.tree = .some node' := by
        cases found : view.leadsTo (Path.join outdir output.name) lazily.tree with
        | none =>
            rw [isDue, missing found] at dueNode
            cases dueNode
        | some other => rw [(opens.found other (leads.symm.trans found)).1]
      refine ⟨false, _, _, _, emitted, paired.concat ⟨settled, paired.settled.2⟩ course ?_
        (roomy.left paired.agree opened filled led) named kept rfl rfl ?_, rfl, List.length_append,
        rfl⟩
      · have passed : Course view system outdir base _ (lazily.shown (fateLine false path)) :=
          paired.lazyCourse.congr rfl rfl rfl
        simpa only [List.filter_append, List.filter_cons, dueNode, Bool.false_eq_true, ↓reduceIte,
          List.filter_nil, List.append_nil] using passed
      · rw [dueNode]
        rfl

/-- **All outputs side by side.** -/
private theorem Paired.all [Foreign System] (Document : Type) {outputs : List Output} {count : Nat}
    (paired : Paired view system alike inputs outdir base opens shown full lazily)
    (plain : ∀ output ∈ outputs, IsPlain output.name)
    (files : ∀ input ∈ inputs, ∃ node contents stamp, view.leadsTo input base = some node ∧
      view.file? node base = some (contents, stamp) ∧ node ∉ fullAfter.opened)
    (once : fullAfter.opened.Nodup)
    (run : emitAll (filesOn system) false inputs outdir outputs full =
      (.ok count fullAfter : EStateM.Result (Fault System Document) (Progress Tree Node) Nat)) :
    ∃ lazyCount lazyAfter opens shown,
      emitAll (filesOn system) true inputs outdir outputs lazily =
        (.ok lazyCount lazyAfter :
          EStateM.Result (Fault System Document) (Progress Tree Node) Nat) ∧
      Paired view system alike inputs outdir base opens shown fullAfter lazyAfter ∧
      fullAfter.opened.length = full.opened.length + count ∧
      lazyAfter.opened.length = lazily.opened.length + lazyCount := by
  induction outputs generalizing full lazily opens shown count with
  | nil =>
      obtain ⟨rfl, rfl⟩ := EStateM.Result.ok.inj run
      exact ⟨0, lazily, opens, shown, rfl, paired, rfl, rfl⟩
  | cons output outputs ih =>
      obtain ⟨plainHere, plainLater⟩ := List.forall_mem_cons.mp plain
      obtain ⟨isWritten, between, others, first, later, rfl⟩ := emitAll_cons_eq_ok.mp run
      have emitted := emission Document system false inputs outdir output full
      rw [first] at emitted
      have start : between.opened <+: fullAfter.opened := opened_prefix_of_emitAll later
      obtain ⟨isDue, lazyBetween, opens, shown, lazyFirst, paired, rfl, grown, lazyGrown⟩ :=
        paired.step lawful roomy Document plainHere
          (fun input member => by
            obtain ⟨node, contents, stamp, led, file, outside⟩ := files input member
            exact ⟨node, contents, stamp, led, file, fun found => outside (start.subset found)⟩)
          (once.sublist start.sublist) emitted
      obtain ⟨lazyCount, lazyAfter, opens, shown, lazyLater, paired, length, lazyLength⟩ :=
        ih paired plainLater later
      refine ⟨(if isDue then 1 else 0) + lazyCount, lazyAfter, opens, shown,
        emitAll_cons_eq_ok.mpr ⟨isDue, lazyBetween, lazyCount, lazyFirst, lazyLater, rfl⟩, paired,
        ?_, ?_⟩
      · rw [length, grown, if_pos rfl]
        omega
      · rw [lazyLength, lazyGrown]
        omega

end Pairing

/-! ### Full runs and lazy runs -/

section Restricting

variable {yaml : Yaml Object Document} {arguments : Arguments} {words : List Raw} {work : Work}

private theorem isDue_of_keeps {after : Tree} (keeps : view.Keeps tree after)
    (files : ∀ input ∈ inputs, ∃ node, view.leadsTo input tree = some node) :
    isDue view inputs after = isDue view inputs tree := by
  have same (input : Raw) (member : input ∈ inputs) :
      view.fileAt? input after = view.fileAt? input tree := by
    obtain ⟨node, led⟩ := files input member
    rw [View.fileAt?, View.fileAt?, led, keeps.paths input node led]
    exact keeps.files node
  funext node
  unfold isDue
  rw [keeps.files node]
  cases view.file? node tree with
  | none => rfl
  | some file =>
      refine Bool.eq_iff_iff.mpr ?_
      simp only [List.any_eq_true]
      exact exists_congr fun input => and_congr_right fun member => by rw [same input member]

private theorem adjust_switch {given options : Options}
    (adjusted : (adjust arguments given : Except (Fault System Document) _) = .ok options) :
    (adjust { arguments with lazy := true } given : Except (Fault System Document) _) =
      .ok { options with lazy := true } := by
  rw [adjust_lazy
    (show adjust { arguments with lazy := arguments.lazy } given = _ from adjusted) true,
    Bool.or_true]

private theorem optionsOn_of_switch {options : Options}
    (decided : optionsOn system yaml arguments tree = .ok options) :
    optionsOn system yaml { arguments with lazy := true } tree =
      .ok { options with lazy := true } := by
  unfold optionsOn at decided ⊢
  dsimp only at decided ⊢
  generalize arguments.config.getD [] = config at decided ⊢
  cases config with
  | nil => exact adjust_switch decided
  | cons c cs =>
      obtain ⟨text, read, decided⟩ := Outcome.bind_eq_ok.mp decided
      obtain ⟨given, parsed, adjusted⟩ := Outcome.bind_eq_ok.mp decided
      exact Outcome.bind_eq_ok.mpr ⟨text, read,
        Outcome.bind_eq_ok.mpr ⟨given, parsed, adjust_switch adjusted⟩⟩

/-- The switch makes a run lazy and has no say in what there is to write. -/
private theorem prepare_of_switch (prepared : prepare system yaml arguments tree = .ok work) :
    prepare system yaml { arguments with lazy := true } tree =
      .ok { work with isLazy := true } := by
  obtain ⟨options, texts, decided, read, defined, planned, -⟩ := prepare_eq_ok_iff.mp prepared
  exact prepare_eq_ok_iff.mpr
    ⟨_, texts, optionsOn_of_switch decided, read, defined, planned, rfl⟩

variable [Foreign System] [Foreign Document]

/-- A lazy run is a full run restricted to the files that are due. -/
structure Restricts (view : View Tree Node Contents) (tree : Tree) (inputs : List Raw)
    (full lazily : Upshot Tree System Node Document) : Prop where
  done : lazily.ending.status? = some 0
  /-- The files that are written are those of the full run that are due, in the same order. -/
  opened : lazily.opened = full.opened.filter (isDue view inputs tree)
  /-- Each of them has the contents that the full run gives it. -/
  written : ∀ node ∈ lazily.opened, ∃ contents stamp fullStamp,
    view.file? node lazily.tree = some (contents, stamp) ∧
      view.file? node full.tree = some (contents, fullStamp)
  /-- Every other file is as it was, with its time, and the paths still lead to it. -/
  others : ∀ node ∉ lazily.opened, view.file? node lazily.tree = view.file? node tree
  paths : view.KeepsPaths tree lazily.tree
  /-- There is a line for each file of the full run, the count of those that were written, and the
  fingerprints. -/
  shown : ∃ (schema : Schema) (outputs : List (String × Node)) (fingerprints : List String),
    outputs.map Prod.snd = full.opened ∧
    (∀ path node, (path, node) ∈ outputs → view.leadsTo (Raw.ofString path) full.tree = some node) ∧
    schema.structs.mapM (structLine schema) = .ok fingerprints ∧
    full.output = shownLines ((outputs.map fun output => fateLine true output.1) ++
      countLine schema full.opened.length :: fingerprints) ∧
    lazily.output = shownLines
      ((outputs.map fun output => fateLine (isDue view inputs tree output.2) output.1) ++
        countLine schema lazily.opened.length :: fingerprints)

omit [Foreign System] [Foreign Document] in
/-- Two runs that have come to the end side by side have written the same. -/
private theorem Paired.written {alike : Tree → Tree → Prop} {opens : List (Output × Node)}
    {shown : List (String × Node)} {full lazily : Progress Tree Node}
    (paired : Paired view system alike inputs outdir base opens shown full lazily)
    (once : full.opened.Nodup) (member : node ∈ lazily.opened) :
    ∃ contents stamp fullStamp, view.file? node lazily.tree = some (contents, stamp) ∧
      view.file? node full.tree = some (contents, fullStamp) := by
  have lazyOnce : lazily.opened.Nodup := by
    rw [paired.lazyCourse.opened]
    rw [paired.fullCourse.opened] at once
    exact once.sublist (List.filter_sublist.map Prod.snd)
  obtain ⟨⟨output, _⟩, listed, rfl⟩ := List.mem_map.mp (paired.lazyCourse.opened ▸ member)
  have holds {progress : Progress Tree Node} (settled : progress.unfinished = none) {node : Node}
      (opened : progress.unfinished = some node ∨ Holds view output node progress.tree) :
      Holds view output node progress.tree := by
    refine opened.resolve_left fun unfinished => ?_
    rw [settled] at unfinished
    cases unfinished
  obtain ⟨text, stamp, some, file⟩ :=
    holds paired.settled.2 ((paired.lazyCourse.each output _ listed).holds lazyOnce)
  obtain ⟨again, fullStamp, same, fullFile⟩ := holds paired.settled.1
    ((paired.fullCourse.each output _ (List.mem_filter.mp listed).1).holds once)
  obtain rfl := Except.ok.inj (some.symm.trans same)
  exact ⟨_, stamp, fullStamp, file, fullFile⟩

end Restricting

end Wireform.Generator
