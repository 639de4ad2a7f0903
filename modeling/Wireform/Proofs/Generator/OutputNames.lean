import Wireform.Proofs.Backend.MatlabNames
import Wireform.Proofs.FileSystem.View
import Wireform.Proofs.Generator.Stages

/-! # Names of outputs

The Python module is named by an identifier, and a MATLAB file by a struct and an ending. So every
output has a name that a file can have, and no two outputs have the same one
(`Wireform.Generator.names_of_prepare`).
-/

namespace Wireform

open Wireform.Path (IsPlain)
open Text (Raw)

variable {Tree System Node Object Document : Type}

/-! ### Names of Python modules -/

namespace Options

variable {yaml : Yaml Object Document}

private theorem isIdentifier_of_moduleAt {entries : String → Option Object} {default name : String}
    (found : moduleAt yaml entries default = .ok name) : Text.isIdentifier name.toList = true := by
  obtain ⟨written, -, found⟩ := Outcome.bind_eq_ok.mp found
  split at found
  · next accepted =>
      obtain rfl := Outcome.pure_eq_ok.mp found
      exact accepted
  · cases found

private theorem isIdentifier_default :
    Text.isIdentifier ({} : Options).pythonModule.toList = true := by
  decide

private theorem isIdentifier_of_ofObject {object : Object} {options : Options}
    (found : ofObject yaml object = .ok options) :
    Text.isIdentifier options.pythonModule.toList = true := by
  unfold ofObject at found
  split at found
  · obtain rfl := Outcome.pure_eq_ok.mp found
    exact isIdentifier_default
  · obtain ⟨pythonSection, -, found⟩ := Outcome.bind_eq_ok.mp found
    obtain ⟨python, -, found⟩ := Outcome.bind_eq_ok.mp found
    obtain ⟨name, named, found⟩ := Outcome.bind_eq_ok.mp found
    obtain ⟨matlabSection, -, found⟩ := Outcome.bind_eq_ok.mp found
    obtain ⟨matlab, -, found⟩ := Outcome.bind_eq_ok.mp found
    obtain ⟨flag, -, rfl⟩ := Outcome.returning_eq_ok.mp found
    exact isIdentifier_of_moduleAt named
  · cases found

/-- The options of a text name the Python module by an identifier. -/
theorem isIdentifier_of_parse {text : String} {options : Options}
    (found : parse yaml text = .ok options) :
    Text.isIdentifier options.pythonModule.toList = true := by
  unfold parse at found
  split at found
  · obtain rfl := Outcome.pure_eq_ok.mp found
    exact isIdentifier_default
  · obtain ⟨object, -, found⟩ := Outcome.bind_eq_ok.mp found
    exact isIdentifier_of_ofObject found

end Options

namespace Generator

variable {system : FileSystem Tree System Node} {yaml : Yaml Object Document}
  {arguments : Arguments} {tree : Tree} {options : Options} {schema : Schema}
  {files : List Output} {work : Work}

private theorem isIdentifier_of_adjust {given : Options}
    (identifier : Text.isIdentifier given.pythonModule.toList = true)
    (adjusted : adjust arguments given =
      (.ok options : Except (Fault System Document) Options)) :
    Text.isIdentifier options.pythonModule.toList = true := by
  unfold adjust at adjusted
  split at adjusted
  · obtain rfl := Outcome.pure_eq_ok.mp adjusted
    exact identifier
  · split at adjusted
    · next name accepted =>
        obtain rfl := Outcome.pure_eq_ok.mp adjusted
        exact (Option.filter_eq_some_iff.mp accepted).2
    · cases adjusted

/-- The Python module of a run is named by an identifier. -/
theorem isIdentifier_of_optionsOn (decided : optionsOn system yaml arguments tree = .ok options) :
    Text.isIdentifier options.pythonModule.toList = true := by
  unfold optionsOn at decided
  split at decided
  · exact isIdentifier_of_adjust Options.isIdentifier_default decided
  · obtain ⟨text, -, decided⟩ := Outcome.bind_eq_ok.mp decided
    obtain ⟨given, read, adjusted⟩ := Outcome.bind_eq_ok.mp decided
    exact isIdentifier_of_adjust
      (Options.isIdentifier_of_parse (Outcome.mapError_eq_ok.mp read)) adjusted

/-! ### Names of outputs -/

private theorem isPlain_append {stem ending : String}
    (unbroken : '/' ∉ stem.toList) (unended : Char.ofNat 0 ∉ stem.toList)
    (clear : '/' ∉ ending.toList ∧ Char.ofNat 0 ∉ ending.toList) (long : 2 < ending.length) :
    IsPlain (stem ++ ending) := by
  have longer : 2 < (stem ++ ending).length := by
    rw [String.length_append]
    omega
  constructor
  · rw [String.toList_append, List.mem_append, not_or]
    exact ⟨unbroken, clear.1⟩
  · rw [String.toList_append, List.mem_append, not_or]
    exact ⟨unended, clear.2⟩
  all_goals
    intro same
    rw [same] at longer
    exact absurd longer (by decide)

private theorem isPlain_pythonModule {name : String}
    (identifier : Text.isIdentifier name.toList = true) :
    IsPlain (name ++ ".py") := by
  have outside (c : Char) (excluded : Text.isIdentifierContinue c = false) : c ∉ name.toList := by
    intro member
    unfold Text.isIdentifier at identifier
    split at identifier
    · cases identifier
    · next first rest shape =>
        obtain ⟨start, continues⟩ := Bool.and_eq_true_iff.mp identifier
        rw [shape] at member
        rcases List.mem_cons.mp member with rfl | later
        · rw [Text.isIdentifierContinue, start, Bool.true_or] at excluded
          cases excluded
        · rw [List.all_eq_true.mp continues c later] at excluded
          cases excluded
  exact isPlain_append (outside '/' (by decide)) (outside _ (by decide))
    (by decide) (by decide)

private theorem isPlain_matlabFile {name ending : String} (dotted : Source.Dotted name)
    (known : ending ∈ Backend.fileEndings) : IsPlain (Backend.matlabName name ++ ending) := by
  have outside (c : Char) (excluded : Source.isNamePart c = false)
      (symbol : c.isAlphanum = false) : c ∉ (Backend.matlabName name).toList := by
    unfold Backend.matlabName
    split
    · intro member
      exact absurd (symbol.symm.trans (Backend.isAlphanum_of_mem_storageClass member)) (by simp)
    · exact Backend.not_mem_flatName dotted excluded
  have endings : ∀ ending ∈ Backend.fileEndings,
      ('/' ∉ ending.toList ∧ Char.ofNat 0 ∉ ending.toList) ∧ 2 < ending.length := by
    decide
  exact isPlain_append (outside '/' (by decide) (by decide))
    (outside _ (by decide) (by decide)) (endings ending known).1 (endings ending known).2

private theorem pythonFile_ne_matlabFile {name stem ending : String}
    (known : ending ∈ Backend.fileEndings) : name ++ ".py" ≠ stem ++ ending := by
  have endings : ∀ ending ∈ Backend.fileEndings, ending.toList.getLast? = some 'm' := by decide
  intro same
  have last := congrArg (·.toList.getLast?) same
  simp [endings ending known] at last

/-- The outputs are a Python module, if there is one, and the MATLAB files. -/
theorem outputs_eq_ok {inputs : List Raw} (planned : outputs options schema inputs = .ok files) :
    ∃ pythonOutputs matlabOutputs : List Output, files = pythonOutputs ++ matlabOutputs ∧
      (pythonOutputs = [] ∨ pythonOutputs = [⟨options.pythonModule ++ ".py",
        moduleText schema (Raw.intercalate ", " (inputs.map Path.baseName))⟩]) ∧
      (matlabOutputs = [] ∨ ∃ made, (Backend.matlabFiles schema []).1 = .ok made ∧
        matlabOutputs = made.map fun file => ⟨file.1, .ok file.2⟩) := by
  unfold outputs at planned
  simp only at planned
  split at planned
  · obtain ⟨made, written, planned⟩ := Outcome.bind_eq_ok.mp planned
    refine ⟨_, _, (Outcome.pure_eq_ok.mp planned).symm, ?_, .inr ⟨made, written, rfl⟩⟩
    cases options.python with
    | false => exact .inl rfl
    | true => exact .inr rfl
  · refine ⟨_, [], (Outcome.pure_eq_ok.mp planned).symm, ?_, .inl rfl⟩
    cases options.python with
    | false => exact .inl rfl
    | true => exact .inr rfl

/-- **The names of the outputs of a run are names of different files.** -/
theorem names_of_prepare (prepared : prepare system yaml arguments tree = .ok work) :
    (work.outputs.map Output.name).Nodup ∧ ∀ output ∈ work.outputs, IsPlain output.name := by
  obtain ⟨options, texts, decided, -, defined, planned, -⟩ := prepare_eq_ok_iff.mp prepared
  obtain ⟨pythonOutputs, matlabOutputs, same, python, matlab⟩ := outputs_eq_ok planned
  have pythonNames : (pythonOutputs.map Output.name).Nodup ∧
      ∀ output ∈ pythonOutputs, output.name = options.pythonModule ++ ".py" := by
    rcases python with rfl | rfl <;> simp
  have matlabNames : (matlabOutputs.map Output.name).Nodup ∧ ∀ output ∈ matlabOutputs,
      ∃ struct ∈ work.schema.structs, ∃ ending ∈ Backend.fileEndings,
        output.name = Backend.matlabName struct.name ++ ending := by
    rcases matlab with rfl | ⟨made, written, rfl⟩
    · simp
    · obtain ⟨distinct, named⟩ := Backend.names_matlabFiles written
      refine ⟨by simpa [Function.comp_def] using distinct, ?_⟩
      intro output member
      obtain ⟨file, present, rfl⟩ := List.mem_map.mp member
      exact named file present
  rw [same]
  constructor
  · rw [List.map_append]
    refine List.Nodup.append pythonNames.1 matlabNames.1 ?_
    intro name left right
    obtain ⟨first, firstMember, rfl⟩ := List.mem_map.mp left
    obtain ⟨second, secondMember, equal⟩ := List.mem_map.mp right
    obtain ⟨struct, -, ending, known, named⟩ := matlabNames.2 second secondMember
    rw [pythonNames.2 first firstMember, named] at equal
    exact pythonFile_ne_matlabFile known equal.symm
  · intro output member
    rcases List.mem_append.mp member with first | second
    · rw [pythonNames.2 output first]
      exact isPlain_pythonModule (isIdentifier_of_optionsOn decided)
    · obtain ⟨struct, present, ending, known, named⟩ := matlabNames.2 output second
      rw [named]
      exact isPlain_matlabFile (Schema.readFrom_of_ofTexts defined struct present).name known

end Generator

end Wireform
