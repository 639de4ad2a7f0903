import Wireform.Generator.Tree
import Wireform.Proofs.Generator.Upshots

/-! # Runs that are rejected

A run is rejected when it fails by what it was asked to do and not by the files it works on. What is
wrong with the options, the definitions or the schema comes out while the run only reads, so that
nothing has changed by then. What is wrong with the names of a Python module comes out last, when
the module is open and empty: this is the one rejection that leaves a change
(`Wireform.Generator.unchanged_iff_of_isRejection`). Nothing is assumed about the file system or
about the reader of options.
-/

namespace Wireform.Generator

open Text (Raw)

variable {Tree System Node Object Document : Type} [Foreign System] [Foreign Document]

/-- Whether a fault is one of what was asked for. -/
def Fault.isRejection : Fault System Document → Bool
  | .file _ => false
  | fault => fault.isReported

variable {system : FileSystem Tree System Node} {yaml : Yaml Object Document} {tree : Tree}
  {words : List Raw} {fault : Fault System Document}

omit [Foreign System] [Foreign Document] in
/-- A fault that comes out while a run only reads is not one of a Python module. -/
private theorem ne_pythonModule_of_prepare {arguments : Arguments}
    (failed : prepare system yaml arguments tree = .error fault) (cause : Backend.ModuleFault) :
    fault ≠ .pythonModule cause := by
  rintro rfl
  rcases prepare_eq_error failed with undecided | ⟨_, _, _, _, other⟩ | ⟨_, _, _, other⟩ |
    ⟨_, _, _, _, _, _, _, other⟩
  · rcases optionsOn_eq_error undecided with ⟨_, _, other⟩ | ⟨_, _, _, _, other⟩ | ⟨_, other⟩ <;>
      cases other
  all_goals cases other

/-- A rejection that comes out while a run writes leaves a file that was opened. -/
private theorem opened_of_deliver {arguments : Arguments} {work : Work}
    {before after : Progress Tree Node}
    (failed : deliver system arguments work before = .error fault after)
    (rejected : fault.isRejection = true) :
    (∃ name, fault = .pythonModule (.name name)) ∧ after.opened ≠ [] := by
  have delivered := delivery Document system arguments work before
  rw [failed] at delivered
  cases delivered with
  | unplaced made => cases rejected
  | unsummarized member unknown made emitted => cases rejected
  | stopped made emitted =>
      obtain ⟨fates, output, later, reached, -, -, stopped⟩ :=
        reached_of_emitAll_eq_error (fun _ _ => True)
          (fun _ _ _ _ _ _ _ _ _ => trivial) trivial emitted
      cases stopped with
      | unasked failed => cases rejected
      | untold handled unspelt => cases rejected
      | unwritten due failed =>
          cases failed with
          | refused closed => cases rejected
          | broken opened some failed => cases rejected
          | @textless node tree cause opened none =>
              cases cause with
              | encoding text => cases rejected
              | pythonModule cause =>
                  cases cause with
                  | plan cause => cases rejected
                  | name name => exact ⟨⟨name, rfl⟩, List.concat_ne_nil node reached.opened⟩

/-- **A rejected run changes nothing, unless it is the names of its Python module that are
rejected.** -/
theorem unchanged_iff_of_isRejection
    (failed : (runOn system yaml tree words).ending = .failed fault)
    (rejected : fault.isRejection = true) :
    ((runOn system yaml tree words).tree = tree ∧ (runOn system yaml tree words).opened = []) ↔
      ∀ name, fault ≠ .pythonModule (.name name) := by
  obtain ⟨arguments, -, ⟨unprepared, same⟩ | ⟨work, after, -, stopped, same⟩⟩ :=
    exists_of_failed failed
  · rw [same]
    exact iff_of_true ⟨rfl, rfl⟩ fun name => ne_pythonModule_of_prepare unprepared _
  · rw [same]
    obtain ⟨⟨name, named⟩, opened⟩ := opened_of_deliver stopped rejected
    exact iff_of_false (fun unchanged => opened unchanged.2) fun none => none name named

/-- A run on definitions that end too early leaves the module of an earlier run. -/
theorem unchanged_of_unfinished_struct :
    let tree : FileTree :=
      ⟨[(["a.lcm"], .file "struct a \x7b int32_t x;" (.time 3)), (["gen"], .directory (.time 1)),
        (["gen", "lcmtypes.py"], .file "x = 1\n" (.time 2))]⟩
    let outcome := run tree ["a.lcm", "--outdir", "/gen"]
    let fault : RunFault := .definitions (.source (.atLine 1 (.unterminatedStruct "a")))
    (outcome.ending = .failed fault ∧ fault.isRejection = true) ∧
      outcome.tree = tree ∧ outcome.opened = [] := by
  intro tree outcome fault
  have failed : outcome.ending = .failed fault ∧ fault.isRejection = true := by
    subst outcome tree fault
    decide +kernel
  exact ⟨failed, (unchanged_iff_of_isRejection failed.1 failed.2).mpr nofun⟩

/-- A run on a struct whose name is a keyword empties the module of an earlier run. -/
theorem emptied_of_keyword_struct :
    let tree : FileTree :=
      ⟨[(["a.lcm"], .file "struct for \x7b int32_t x; \x7d" (.time 3)),
        (["gen"], .directory (.time 1)), (["gen", "lcmtypes.py"], .file "x = 1\n" (.time 2))]⟩
    let outcome := run tree ["a.lcm", "--outdir", "gen"]
    let fault : RunFault := .pythonModule (.name (.classKeyword "for"))
    outcome.ending = .failed fault ∧ fault.isRejection = true ∧
      tree.text? ["gen", "lcmtypes.py"] = some "x = 1\n" ∧
      outcome.tree.text? ["gen", "lcmtypes.py"] = some "" := by
  decide +kernel

end Wireform.Generator
