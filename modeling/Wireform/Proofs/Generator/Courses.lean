import Mathlib.Data.List.Nodup
import Wireform.Proofs.FileSystem.Directories
import Wireform.Proofs.Generator.Upshots

/-! # The course of a run

How far a run has come with its files is told by the outputs that were opened to be written
(`Wireform.Generator.Course`): each path of theirs leads to the file that was opened by it, all
other files are as they were, and no path leads anywhere else than before. As long as no file was
opened twice, each of them holds the text of its output, apart from the one that is not written in
full.

Every step keeps this, whether it succeeds or fails, and so do all of them
(`Wireform.Generator.course_of_emitAll`, `Wireform.Generator.course_of_emitAll_eq_error`). That a
file system is lawful is all that is asked for here.
-/

namespace Wireform.Generator

open FileSystem (View)
open Wireform.Path (IsPlain)
open Text (Raw)

variable {Tree System Node Contents Document : Type} {view : View Tree Node Contents}
  {system : FileSystem Tree System Node} {outdir : Raw} {base tree : Tree}
  {opens : List (Output × Node)} {progress : Progress Tree Node} {output : Output} {node : Node}

/-! ### A directory of files -/

/-- All that is in a directory are files, and each of them has one name there. -/
structure IsTidy (view : View Tree Node Contents) (directory : Raw) (tree : Tree) : Prop where
  files : ∀ name, IsPlain name → view.IsTaken (Path.join directory name) tree →
    ∃ node, view.leadsTo (Path.join directory name) tree = some node ∧ (view.file? node tree).isSome
  distinct : ∀ name other node, IsPlain name → IsPlain other →
    view.leadsTo (Path.join directory name) tree = some node →
    view.leadsTo (Path.join directory other) tree = some node → name = other

/-- Opening a file in a directory of files leaves it one. -/
theorem IsTidy.opening (lawful : view.IsLawful system) (tidy : IsTidy view outdir base)
    {name : String} (plain : IsPlain name)
    (opens : view.Opens system (Path.join outdir name) node base tree) :
    IsTidy view outdir tree := by
  have before (other : String) (otherPlain : IsPlain other) (apart : other ≠ name)
      (taken : view.IsTaken (Path.join outdir other) tree) :
      ∃ led, view.leadsTo (Path.join outdir other) base = some led ∧
        (view.file? led base).isSome := by
    refine tidy.files other otherPlain ?_
    refine opens.names outdir name other rfl plain otherPlain apart (fun taken => ?_) taken
    obtain ⟨led, there, -⟩ := tidy.files name plain taken
    rw [there]
    exact Option.some_ne_none led
  -- a name beside the one that was opened leads to another file
  have beside (other : String) (otherPlain : IsPlain other) (apart : other ≠ name)
      (there : view.leadsTo (Path.join outdir other) tree = some node) : False := by
    obtain ⟨led, was, isFile⟩ :=
      before other otherPlain apart (lawful.isTaken_of_leadsTo there)
    obtain rfl := Option.some.inj ((opens.paths _ _ was).symm.trans there)
    cases found : view.leadsTo (Path.join outdir name) base with
    | none =>
        rw [opens.fresh found] at isFile
        cases isFile
    | some same =>
        obtain ⟨rfl, -⟩ := opens.found same found
        exact apart (tidy.distinct other name same otherPlain plain was found)
  constructor
  · intro other otherPlain taken
    by_cases same : other = name
    · subst same
      exact ⟨node, opens.leadsTo, opens.isFile⟩
    · obtain ⟨led, was, isFile⟩ := before other otherPlain same taken
      refine ⟨led, opens.paths _ _ was, ?_⟩
      have apart : led ≠ node := by
        rintro rfl
        exact beside other otherPlain same (opens.paths _ _ was)
      rwa [opens.others led apart]
  · intro first second led firstPlain secondPlain there again
    by_cases opened : led = node
    · subst opened
      have one (other : String) (plain : IsPlain other)
          (there : view.leadsTo (Path.join outdir other) tree = some led) : other = name := by
        by_contra apart
        exact beside other plain apart there
      rw [one first firstPlain there, one second secondPlain again]
    · exact tidy.distinct first second led firstPlain secondPlain
        (opens.known _ led there opened) (opens.known _ led again opened)

/-- Writing to a file leaves a directory of files one. -/
theorem IsTidy.rewriting (tidy : IsTidy view outdir base)
    (rewrites : view.Rewrites system node base tree) : IsTidy view outdir tree where
  files name plain taken := by
    obtain ⟨led, was, isFile⟩ := tidy.files name plain ((rewrites.isTaken _).mp taken)
    refine ⟨led, (rewrites.leadsTo _).trans was, ?_⟩
    by_cases same : led = node
    · exact same ▸ rewrites.isFile
    · rwa [rewrites.others led same]
  distinct first second led firstPlain secondPlain there again :=
    tidy.distinct first second led firstPlain secondPlain
      ((rewrites.leadsTo _).symm.trans there) ((rewrites.leadsTo _).symm.trans again)

/-! ### How far a run has come -/

/-- A file holds the text of an output. -/
def Holds (view : View Tree Node Contents) (output : Output) (node : Node) (tree : Tree) : Prop :=
  ∃ text stamp, output.text = .ok text ∧
    view.file? node tree = some (view.holding node text, stamp)

/-- A file was opened for an output. If it was so once only, it holds the text of the output, or it
is the one that is not written in full. -/
structure IsOpened (view : View Tree Node Contents) (outdir : Raw) (progress : Progress Tree Node)
    (output : Output) (node : Node) : Prop where
  leadsTo : view.leadsTo (Path.join outdir output.name) progress.tree = some node
  isFile : (view.file? node progress.tree).isSome
  holds : progress.opened.Nodup →
    progress.unfinished = some node ∨ Holds view output node progress.tree

/-- How far a run has come with its files: for some outputs files were opened, in their order, and
nothing else was touched. -/
structure Course (view : View Tree Node Contents) (system : FileSystem Tree System Node)
    (outdir : Raw) (base : Tree) (opens : List (Output × Node)) (progress : Progress Tree Node) :
    Prop where
  opened : progress.opened = opens.map Prod.snd
  each : ∀ output node, (output, node) ∈ opens → IsOpened view outdir progress output node
  others : ∀ node ∉ progress.opened, view.file? node progress.tree = view.file? node base
  paths : view.KeepsPaths base progress.tree
  known : ∀ path node, view.leadsTo path progress.tree = some node → node ∉ progress.opened →
    view.leadsTo path base = some node
  /-- A file that was opened is a new one, or the path of an output led to it. -/
  fresh : ∀ node ∈ progress.opened, view.file? node base = none ∨
    ∃ pair ∈ opens, view.leadsTo (Path.join outdir pair.1.name) base = some node
  directories : ∀ path, system.isDirectory path base → system.isDirectory path progress.tree
  tidy : IsTidy view outdir base → IsTidy view outdir progress.tree

namespace Course

/-- No file was opened yet. -/
theorem begin (same : progress.tree = base) (none : progress.opened = []) :
    Course view system outdir base [] progress where
  opened := none
  each _ _ := nofun
  others _ _ := by rw [same]
  paths _ _ led := by rwa [same]
  known _ _ led _ := by rwa [same] at led
  fresh _ member := absurd (none ▸ member) List.not_mem_nil
  directories _ there := by rwa [same]
  tidy before := by rwa [same]

/-- What is shown does not matter. -/
theorem congr {other : Progress Tree Node} (course : Course view system outdir base opens progress)
    (tree : other.tree = progress.tree) (opened : other.opened = progress.opened)
    (unfinished : other.unfinished = progress.unfinished) :
    Course view system outdir base opens other := by
  obtain ⟨_, _, _, _⟩ := other
  obtain ⟨_, _, _, _⟩ := progress
  simp only at tree opened unfinished
  subst tree opened unfinished
  exact ⟨course.opened, fun output node member => ⟨(course.each output node member).leadsTo,
    (course.each output node member).isFile, (course.each output node member).holds⟩,
    course.others, course.paths, course.known, course.fresh, course.directories, course.tidy⟩

private theorem not_mem_opened {other : Node} (outside : other ∉ progress.opened ++ [node]) :
    other ∉ progress.opened ∧ other ≠ node := by
  rwa [List.mem_append, List.mem_singleton, not_or] at outside

/-- A file that was opened before another one stays as it is. -/
private theorem isOpened_of_opens {other : Node} {path : Raw} (member : other ∈ progress.opened)
    (opened : IsOpened view outdir progress output other) (settled : progress.unfinished = none)
    (opens : view.Opens system path node progress.tree tree) :
    IsOpened view outdir (progress.opening node tree) output other where
  leadsTo := opens.paths _ _ opened.leadsTo
  isFile := by
    by_cases same : other = node
    · exact same ▸ opens.isFile
    · exact (opens.others other same).symm ▸ opened.isFile
  holds distinct := by
    obtain ⟨once, -, apart⟩ := List.nodup_append.mp distinct
    rcases opened.holds once with unfinished | ⟨text, stamp, some, held⟩
    · rw [settled] at unfinished
      cases unfinished
    · refine .inr ⟨text, stamp, some, ?_⟩
      rw [← held]
      exact opens.others other (apart other member node (List.mem_singleton_self node))

/-- Opening a file for one more output goes on with the course. -/
theorem opening (lawful : view.IsLawful system)
    (course : Course view system outdir base opens progress) (plain : IsPlain output.name)
    (settled : progress.unfinished = none)
    (opened : view.Opens system (Path.join outdir output.name) node progress.tree tree) :
    Course view system outdir base (opens ++ [(output, node)]) (progress.opening node tree) where
  opened := by
    rw [Progress.opening, course.opened, List.map_append]
    rfl
  each other led member := by
    rcases List.mem_append.mp member with before | last
    · refine isOpened_of_opens ?_ (course.each other led before) settled opened
      rw [course.opened]
      exact List.mem_map_of_mem before
    · obtain ⟨rfl, rfl⟩ := Prod.mk.inj (List.mem_singleton.mp last)
      exact ⟨opened.leadsTo, opened.isFile, fun _ => .inl rfl⟩
  others other outside := by
    obtain ⟨before, apart⟩ := not_mem_opened outside
    rw [← course.others other before]
    exact opened.others other apart
  paths path led before := opened.paths path led (course.paths path led before)
  known path led reached outside := by
    obtain ⟨before, apart⟩ := not_mem_opened outside
    exact course.known path led (opened.known path led reached apart) before
  fresh other member := by
    by_cases before : other ∈ progress.opened
    · refine (course.fresh other before).imp_right ?_
      rintro ⟨pair, listed, led⟩
      exact ⟨pair, List.mem_append_left _ listed, led⟩
    · obtain rfl := List.mem_singleton.mp ((List.mem_append.mp member).resolve_left before)
      cases led : view.leadsTo (Path.join outdir output.name) progress.tree with
      | none =>
          rw [← course.others other before]
          exact .inl (opened.fresh led)
      | some same =>
          obtain ⟨rfl, -⟩ := opened.found same led
          exact .inr ⟨(output, same), List.mem_append_right _ List.mem_cons_self,
            course.known _ _ led before⟩
  directories path there := opened.directories path (course.directories path there)
  tidy before := (course.tidy before).opening lawful plain opened

/-- Writing a part of a text goes on with the course. -/
theorem rewriting (course : Course view system outdir base opens progress)
    (rewrites : view.Rewrites system node progress.tree tree) (member : node ∈ progress.opened)
    (unfinished : progress.unfinished = some node) :
    Course view system outdir base opens { progress with tree } where
  opened := course.opened
  each output other present := by
    obtain ⟨led, isFile, holds⟩ := course.each output other present
    refine ⟨(rewrites.leadsTo _).trans led, ?_, fun distinct => ?_⟩
    · by_cases same : other = node
      · exact same ▸ rewrites.isFile
      · exact (rewrites.others other same).symm ▸ isFile
    · rcases holds distinct with last | ⟨text, stamp, some, held⟩
      · exact .inl last
      · by_cases same : other = node
        · exact .inl (same ▸ unfinished)
        · exact .inr ⟨text, stamp, some, (rewrites.others other same).trans held⟩
  others other outside := by
    refine (rewrites.others other fun same => outside ?_).trans (course.others other outside)
    exact same ▸ member
  paths path led before := (rewrites.leadsTo path).trans (course.paths path led before)
  known path led reached outside :=
    course.known path led ((rewrites.leadsTo path).symm.trans reached) outside
  fresh := course.fresh
  directories path there := rewrites.directories path (course.directories path there)
  tidy before := (course.tidy before).rewriting rewrites

/-- Writing a text in full settles the course. -/
theorem finishing (course : Course view system outdir base (opens ++ [(output, node)]) progress)
    (unfinished : progress.unfinished = some node) (holds : Holds view output node progress.tree) :
    Course view system outdir base (opens ++ [(output, node)])
      (progress.finished progress.tree) where
  opened := course.opened
  each other led member := by
    obtain ⟨reached, isFile, held⟩ := course.each other led member
    refine ⟨reached, isFile, fun distinct => .inr ?_⟩
    by_cases same : led = node
    · -- no file was opened twice, so this is the last output
      subst same
      have once : ((opens ++ [(output, led)]).map Prod.snd).Nodup := course.opened ▸ distinct
      obtain ⟨rfl, -⟩ := Prod.mk.inj (List.inj_on_of_nodup_map once member
        (List.mem_append_right opens List.mem_cons_self) rfl)
      exact holds
    · refine (held distinct).resolve_left fun last => same ?_
      exact (Option.some.inj (unfinished.symm.trans last)).symm
  others := course.others
  paths := course.paths
  known := course.known
  fresh := course.fresh
  directories := course.directories
  tidy := course.tidy

end Course

/-! ### Every step -/

section Steps

variable (lawful : view.IsLawful system) (plain : IsPlain output.name) {isLazy : Bool}
  {inputs : List Raw} {after : Progress Tree Node} {fault : Fault System Document} {isDue : Bool}
include lawful plain

private theorem course_of_writing (course : Course view system outdir base opens progress)
    (settled : progress.unfinished = none)
    {result : EStateM.Result (Fault System Document) (Progress Tree Node) Unit}
    (writing : Writing system (Path.join outdir output.name) output progress result) :
    (∀ after, result = .ok () after → after.unfinished = none ∧
      ∃ node, Course view system outdir base (opens ++ [(output, node)]) after) ∧
    ∀ fault after, result = .error fault after →
      Course view system outdir base opens after ∨
        ∃ node, Course view system outdir base (opens ++ [(output, node)]) after := by
  cases writing with
  | @refused fault tree closed =>
      refine ⟨nofun, ?_⟩
      rintro _ _ ⟨⟩
      obtain rfl := lawful.openFile_error closed
      exact .inl course
  | @textless node tree fault opened none =>
      refine ⟨nofun, ?_⟩
      rintro _ _ ⟨⟩
      exact .inr ⟨node, course.opening lawful plain settled (lawful.openFile_ok opened)⟩
  | @broken node tree after text fault opened some failed =>
      refine ⟨nofun, ?_⟩
      rintro _ _ ⟨⟩
      have opens := lawful.openFile_ok opened
      refine .inr ⟨node, (course.opening lawful plain settled opens).rewriting ?_ ?_ rfl⟩
      · exact lawful.write_error opens.isFile failed
      · exact List.mem_append_right _ List.mem_cons_self
  | @written node tree after text opened some filled =>
      refine ⟨?_, nofun⟩
      rintro _ ⟨⟩
      have opens := lawful.openFile_ok opened
      obtain ⟨rewrites, stamp, held⟩ := lawful.write_ok opens.isFile filled
      have rewritten := (course.opening lawful plain settled opens).rewriting rewrites
        (List.mem_append_right _ List.mem_cons_self) rfl
      exact ⟨rfl, node, rewritten.finishing rfl ⟨text, stamp, some, held⟩⟩

/-- A step that succeeds goes on with the course, and tells whether it opened a file. -/
theorem course_of_emission (course : Course view system outdir base opens progress)
    (settled : progress.unfinished = none)
    (emitted : Emission system isLazy inputs (Path.join outdir output.name) output progress
      (.ok isDue after : EStateM.Result (Fault System Document) (Progress Tree Node) Bool)) :
    after.unfinished = none ∧
      if isDue then ∃ node, Course view system outdir base (opens ++ [(output, node)]) after
      else Course view system outdir base opens after ∧ after.opened = progress.opened ∧
        due system isLazy inputs (Path.join outdir output.name) progress.tree = .ok false := by
  cases emitted with
  | told handled spelt =>
      cases handled with
      | skipped current => exact ⟨settled, course.congr rfl rfl rfl, rfl, current⟩
      | written due done =>
          obtain ⟨settled, node, course⟩ :=
            (course_of_writing lawful plain course settled done).1 _ rfl
          exact ⟨settled, node, course.congr rfl rfl rfl⟩

/-- A step that fails goes on with the course, or leaves it as it is. -/
theorem course_of_emission_error (course : Course view system outdir base opens progress)
    (settled : progress.unfinished = none)
    (emitted : Emission system isLazy inputs (Path.join outdir output.name) output progress
      (.error fault after)) :
    Course view system outdir base opens after ∨
      ∃ node, Course view system outdir base (opens ++ [(output, node)]) after := by
  cases emitted with
  | unasked failed => exact .inl course
  | unwritten due failed => exact (course_of_writing lawful plain course settled failed).2 _ _ rfl
  | untold handled unspelt =>
      cases handled with
      | skipped current => exact .inl course
      | written due done =>
          obtain ⟨-, node, course⟩ := (course_of_writing lawful plain course settled done).1 _ rfl
          exact .inr ⟨node, course⟩

end Steps

/-! ### All steps -/

/-- The outputs that were due were opened. Each of the others was current at some time in the course
of the run. -/
structure Arrival (view : View Tree Node Contents) (system : FileSystem Tree System Node)
    (isLazy : Bool) (inputs : List Raw) (outdir : Raw) (base : Tree) (fates : List (Output × Bool))
    (opens : List (Output × Node)) (progress : Progress Tree Node) : Prop where
  settled : progress.unfinished = none
  opened : opens.map Prod.fst = (fates.filter Prod.snd).map Prod.fst
  course : Course view system outdir base opens progress
  left : ∀ output, (output, false) ∈ fates → ∃ earlier reached, earlier <+: opens ∧
    Course view system outdir base earlier reached ∧
    due system isLazy inputs (Path.join outdir output.name) reached.tree = .ok false

/-- What was opened are some of the outputs, in their order. -/
theorem Arrival.sublist {isLazy : Bool} {inputs : List Raw} {outputs : List Output}
    {fates : List (Output × Bool)}
    (arrival : Arrival view system isLazy inputs outdir base fates opens progress)
    (whole : fates.map Prod.fst = outputs) : (opens.map Prod.fst).Sublist outputs := by
  rw [arrival.opened, ← whole]
  exact List.filter_sublist.map _

section Running

variable (lawful : view.IsLawful system) {isLazy : Bool} {inputs : List Raw} {outputs : List Output}
  {after : Progress Tree Node} {fault : Fault System Document} {count : Nat}

include lawful in
private theorem Arrival.step {fates : List (Output × Bool)} (plain : IsPlain output.name)
    (arrival : Arrival view system isLazy inputs outdir base fates opens progress) {isDue : Bool}
    (emitted : Emission system isLazy inputs (Path.join outdir output.name) output progress
      (.ok isDue after : EStateM.Result (Fault System Document) (Progress Tree Node) Bool)) :
    ∃ opens, Arrival view system isLazy inputs outdir base (fates ++ [(output, isDue)]) opens
      after := by
  obtain ⟨settled, opened, course, left⟩ := arrival
  obtain ⟨settledAfter, gone⟩ := course_of_emission lawful plain course settled emitted
  cases isDue with
  | true =>
      obtain ⟨node, goneOn⟩ := gone
      refine ⟨opens ++ [(output, node)], settledAfter, ?_, goneOn, fun other member => ?_⟩
      · rw [List.map_append, opened, List.filter_append, List.map_append]
        rfl
      · have before : (other, false) ∈ fates := by simpa using member
        obtain ⟨earlier, reached, start, known⟩ := left other before
        exact ⟨earlier, reached, start.trans (List.prefix_append _ _), known⟩
  | false =>
      obtain ⟨goneOn, -, current⟩ := gone
      refine ⟨opens, settledAfter, ?_, goneOn, fun other member => ?_⟩
      · rw [opened, List.filter_append, List.map_append]
        exact (List.append_nil _).symm
      · rcases List.mem_append.mp member with before | last
        · exact left other before
        · obtain ⟨rfl, -⟩ := Prod.mk.inj (List.mem_singleton.mp last)
          exact ⟨opens, progress, List.prefix_rfl, course, current⟩

private theorem member {fates : List (Output × Bool)} {later : List Output}
    (whole : outputs = fates.map Prod.fst ++ output :: later) : output ∈ outputs :=
  whole ▸ List.mem_append_right _ List.mem_cons_self

variable [Foreign System] (plain : ∀ output ∈ outputs, IsPlain output.name)
  (fresh : progress.opened = []) (settled : progress.unfinished = none)
include lawful plain fresh settled

/-- **A run that is not stopped opens what is due.** -/
theorem arrival_of_emitAll
    (run : emitAll (filesOn system) isLazy inputs outdir outputs progress =
      (.ok count after : EStateM.Result (Fault System Document) (Progress Tree Node) Nat)) :
    ∃ fates opens, fates.map Prod.fst = outputs ∧
      Arrival view system isLazy inputs outdir progress.tree fates opens after := by
  obtain ⟨fates, whole, -, opens, arrival⟩ := reached_of_emitAll
    (fun fates after => ∃ opens,
      Arrival view system isLazy inputs outdir progress.tree fates opens after)
    (fun fates output later whole reached isDue after here emitted =>
      here.elim fun opens arrival => arrival.step lawful (plain output (member whole)) emitted)
    ⟨[], settled, rfl, .begin rfl fresh, nofun⟩ run
  exact ⟨fates, opens, whole, arrival⟩

/-- **A run that is stopped has opened some of its outputs.** -/
theorem course_of_emitAll_eq_error
    (run : emitAll (filesOn system) isLazy inputs outdir outputs progress = .error fault after) :
    ∃ opens : List (Output × Node), (opens.map Prod.fst).Sublist outputs ∧
      Course view system outdir progress.tree opens after := by
  obtain ⟨fates, output, later, reached, rfl, ⟨opens, arrival⟩, stopped⟩ :=
    reached_of_emitAll_eq_error
      (fun fates after => ∃ opens,
        Arrival view system isLazy inputs outdir progress.tree fates opens after)
      (fun fates output later whole reached isDue after here emitted =>
        here.elim fun opens arrival => arrival.step lawful (plain output (member whole)) emitted)
      ⟨[], settled, rfl, .begin rfl fresh, nofun⟩ run
  have before : (opens.map Prod.fst).Sublist (fates.map Prod.fst) := by
    rw [arrival.opened]
    exact List.filter_sublist.map _
  rcases course_of_emission_error lawful (plain output (List.mem_append_right _ List.mem_cons_self))
    arrival.course arrival.settled stopped with course | ⟨node, course⟩
  · exact ⟨opens, before.trans (List.sublist_append_left _ _), course⟩
  · refine ⟨opens ++ [(output, node)], ?_, course⟩
    rw [List.map_append]
    exact before.append (List.Sublist.cons_cons output (List.nil_sublist later))

end Running

/-! ### Runs in a directory of files -/

/-- In a directory of files, outputs with different names have different files. -/
theorem Course.nodup (course : Course view system outdir base opens progress)
    (tidy : IsTidy view outdir base) (plain : ∀ pair ∈ opens, IsPlain pair.1.name)
    (distinct : (opens.map fun pair => pair.1.name).Nodup) : progress.opened.Nodup := by
  rw [course.opened, List.Nodup, List.pairwise_map]
  rw [List.Nodup, List.pairwise_map] at distinct
  refine distinct.imp_of_mem fun {first second} firstIn secondIn apart same => apart ?_
  have led := (course.each second.1 second.2 secondIn).leadsTo
  rw [← same] at led
  exact (course.tidy tidy).distinct _ _ _ (plain first firstIn) (plain second secondIn)
    (course.each first.1 first.2 firstIn).leadsTo led

end Wireform.Generator
