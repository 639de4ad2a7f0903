import Wireform.Generator.Tree
import Wireform.Proofs.Backend.Emission
import Wireform.Proofs.CommandLine.Spelling
import Wireform.Proofs.FileTree.Lawful
import Wireform.Proofs.Generator.OutputNames
import Wireform.Proofs.Generator.Upshots
import Wireform.Proofs.Source.FaultLines

/-! # Faults that are reported

A run that fails says so, with a line about the fault and a status of its own, where its inputs are
sound (`Wireform.Generator.IsSound`): the reader of options accepts the options file or finds it
malformed, and the extents and sizes in the definitions are numerals. Then every command line ends
with a status (`Wireform.Generator.status_of_run`).

The words of the command line must be texts without a null character, since nothing else can be
shown and be a path. Of the file system no more is asked than that its calls fail as calls of a
system do (`Wireform.FileSystem.IsExpected`).
-/

namespace Wireform

open Outcome (FailsWithin)
open Text (Raw RawChar)

variable {Tree System Node Object Document : Type} [Foreign System] [Foreign Document]

/-- The objects inside an object: itself, and those at the keys of mappings. -/
inductive Yaml.Inside (yaml : Yaml Object Document) (root : Object) : Object → Prop
  | root : Inside yaml root root
  | entry {outer inner : Object} {entries : String → Option Object} {name : String}
      (inside : Inside yaml root outer) (mapping : yaml.shape outer = .mapping entries)
      (found : entries name = some inner) : Inside yaml root inner

/-- The reader of options reads a text, or finds it malformed, and every object that it finds has a
text. -/
structure Yaml.IsSettled (yaml : Yaml Object Document) (text : String) : Prop where
  load : FailsWithin (Foreign.isExpected · = true) (yaml.load text)
  texts : ∀ root, yaml.load text = .ok root → ∀ object, yaml.Inside root object →
    ∃ words, yaml.text object = .ok words

/-! ### Faults of options -/

namespace Options

/-- A fault of options, if it is one of the document, is reckoned with. -/
private def IsReckoned (fault : Fault Document) : Prop :=
  ∀ cause, fault = .document cause → Foreign.isExpected cause = true

variable {yaml : Yaml Object Document} {entries : String → Option Object}

omit [Foreign Document] in
private theorem field?_eq_some {name : String} {object : Object} {shape : Shape Object}
    (found : field? yaml entries name = some (object, shape)) :
    entries name = some object ∧ yaml.shape object = shape := by
  unfold field? at found
  split at found
  · cases found
  · next named =>
      split at found
      · cases found
      · obtain ⟨rfl, rfl⟩ := Prod.mk.inj (Option.some.inj found)
        exact ⟨named, rfl⟩

private theorem isReckoned_sectionAt (name : String) :
    FailsWithin IsReckoned (sectionAt yaml entries name) := by
  unfold sectionAt
  split
  · exact Outcome.failsWithin_ok _
  · exact Outcome.failsWithin_ok _
  · exact Outcome.failsWithin_error nofun

private theorem isReckoned_flagAt (name place : String) (default : Bool) :
    FailsWithin IsReckoned (flagAt yaml entries name place default) := by
  unfold flagAt
  split
  · exact Outcome.failsWithin_ok _
  · exact Outcome.failsWithin_ok _
  · exact Outcome.failsWithin_error nofun

private theorem isReckoned_moduleAt
    (texts : ∀ object, entries "module" = some object → ∃ words, yaml.text object = .ok words)
    (default : String) : FailsWithin IsReckoned (moduleAt yaml entries default) := by
  refine Outcome.FailsWithin.bind ?_ fun name _ => ?_
  · split
    · exact Outcome.failsWithin_ok _
    · next object shape found =>
        obtain ⟨words, spelt⟩ := texts object (field?_eq_some found).1
        rw [spelt]
        exact Outcome.failsWithin_ok words
  · split
    · exact Outcome.failsWithin_ok _
    · exact Outcome.failsWithin_error nofun

omit [Foreign Document] in
/-- A section is the root or one of the mappings in it. -/
private theorem inside_of_sectionAt {root object : Object} {name key : String}
    {found : String → Option Object} (mapping : yaml.shape root = .mapping entries)
    (taken : sectionAt yaml entries name = .ok found) (there : found key = some object) :
    yaml.Inside root object := by
  unfold sectionAt at taken
  split at taken
  · obtain rfl := Except.ok.inj taken
    cases there
  · next outer _ named =>
      obtain rfl := Except.ok.inj taken
      obtain ⟨listed, shape⟩ := field?_eq_some named
      exact .entry (.entry .root mapping listed) shape there
  · cases taken

/-- Options fail as their document does, or by what they say themselves. -/
theorem isReckoned_parse {text : String} (settled : yaml.IsSettled text) {cause : Document}
    (failed : parse yaml text = .error (.document cause)) : Foreign.isExpected cause = true := by
  suffices within : FailsWithin IsReckoned (parse yaml text) from within _ failed cause rfl
  unfold parse
  split
  · exact Outcome.failsWithin_ok _
  refine Outcome.FailsWithin.bind (settled.load.mapError ?_) fun root loaded => ?_
  · rintro fault expected cause ⟨⟩
    exact expected
  have texts := settled.texts root (Outcome.mapError_eq_ok.mp loaded)
  unfold ofObject
  split
  · exact Outcome.failsWithin_ok _
  · next entries mapping =>
      refine (isReckoned_sectionAt "python").bind fun pythonSection found => ?_
      refine (isReckoned_flagAt "enabled" "python" _).bind fun _ _ => ?_
      refine Outcome.FailsWithin.bind (isReckoned_moduleAt (fun object there =>
        texts object (inside_of_sectionAt mapping found there)) _) fun _ _ => ?_
      refine (isReckoned_sectionAt "matlab").bind fun _ _ => ?_
      refine (isReckoned_flagAt "enabled" "matlab" _).bind fun _ _ => ?_
      exact (isReckoned_flagAt "lazy" "root" _).returning _
  · exact Outcome.failsWithin_error nofun

end Options

namespace Generator

variable {system : FileSystem Tree System Node} {yaml : Yaml Object Document} {tree : Tree}
  {words : List Raw} {arguments : Arguments} {work : Work} {fault : Fault System Document}

/-- The options of a run are malformed or have values, and its definitions are invalid or have
numerals as extents and sizes. -/
structure IsSound (system : FileSystem Tree System Node) (yaml : Yaml Object Document)
    (tree : Tree) (arguments : Arguments) : Prop where
  /-- Every file holds a text: a file that is not read is not there or not allowed to be read. -/
  files : ∀ path : Raw, path.IsClean → FailsWithin (Foreign.isExpected · = true)
    (system.read path tree)
  options : ∀ text, system.read (arguments.config.getD []) tree = .ok text → yaml.IsSettled text
  definitions : ∀ texts schema,
    (arguments.inputs.mapM fun path => system.read path tree) = .ok texts →
    Schema.ofTexts texts = .ok schema → ∀ struct ∈ schema.structs, struct.IsMeasured

/-- The paths of a run are clean. -/
private structure IsClean (arguments : Arguments) : Prop where
  inputs : ∀ path ∈ arguments.inputs, path.IsClean
  outdir : arguments.outdir.IsClean
  config : (arguments.config.getD []).IsClean

omit [Foreign System] [Foreign Document] in
private theorem isClean_of_read (clean : ∀ word ∈ words, word.IsClean)
    (read : CommandLine.read words = .ok (.run arguments)) : IsClean arguments := by
  have spelt := CommandLine.paths_of_read read
  have known {path : Raw} (found : CommandLine.Spelt words path) : path.IsClean := by
    intro c member
    obtain ⟨word, listed, present⟩ := found c member
    exact clean word listed c present
  refine ⟨fun path member => known (spelt.inputs path member), known spelt.outdir, ?_⟩
  cases given : arguments.config with
  | none => exact nofun
  | some path => exact known (spelt.config path given)

/-! ### Faults of the first stage -/

private theorem isReported_options {cause : Options.Fault Document}
    (expected : ∀ fault, cause = .document fault → Foreign.isExpected fault = true) :
    (Fault.options cause : Fault System Document).isReported = true := by
  cases cause with
  | document cause => exact expected cause rfl
  | _ => rfl

private theorem isReported_definitions {cause : ReadFault} (other : cause ≠ .source .pastEnd) :
    (Fault.definitions cause : Fault System Document).isReported = true := by
  cases cause with
  | source cause =>
      cases cause with
      | pastEnd => exact absurd rfl other
      | _ => rfl
  | _ => rfl

omit [Foreign System] in
/-- The structs of a sound run can be rendered. -/
private theorem IsSound.isRenderable [Foreign System] (sound : IsSound system yaml tree arguments)
    {texts : List String} {schema : Schema}
    (read : (arguments.inputs.mapM fun path => system.read path tree) = .ok texts)
    (defined : Schema.ofTexts texts = .ok schema) :
    ∀ struct ∈ schema.structs, struct.IsRenderable := by
  intro struct member
  exact (sound.definitions texts schema read defined struct member).isRenderable
    (Schema.readFrom_of_ofTexts defined struct member)

omit [Foreign System] [Foreign Document] in
private theorem exists_outputs {schema : Schema} (valid : schema.validate = .ok ())
    (renderable : ∀ struct ∈ schema.structs, struct.IsRenderable) (options : Options)
    (inputs : List Raw) : ∃ files, outputs options schema inputs = .ok files := by
  obtain ⟨made, written⟩ := Backend.exists_matlabFiles valid renderable []
  unfold outputs
  simp only [written]
  cases options.matlab <;> exact ⟨_, rfl⟩

private theorem isReported_of_prepare (sound : IsSound system yaml tree arguments)
    (clean : IsClean arguments)
    (failed : prepare system yaml arguments tree = .error fault) : fault.isReported = true := by
  rcases prepare_eq_error failed with undecided | ⟨path, member, cause, unread, rfl⟩ |
    ⟨texts, cause, undefined, rfl⟩ | ⟨options, texts, schema, cause, read, defined, unplanned, rfl⟩
  · rcases optionsOn_eq_error undecided with ⟨cause, unread, rfl⟩ |
      ⟨text, cause, read, refused, rfl⟩ | ⟨name, rfl⟩
    · exact sound.files _ clean.config cause unread
    · refine isReported_options fun fault same => ?_
      exact Options.isReckoned_parse (sound.options text read) (same ▸ refused)
    · rfl
  · exact sound.files path (clean.inputs path member) cause unread
  · exact isReported_definitions fun ended => Schema.ofTexts_ne_pastEnd texts (ended ▸ undefined)
  · obtain ⟨-, valid⟩ := Schema.ofTexts_eq_ok_iff.mp defined
    obtain ⟨files, planned⟩ :=
      exists_outputs valid (sound.isRenderable read defined) options arguments.inputs
    rw [planned] at unplanned
    cases unplanned

/-! ### Faults of the second stage -/

omit [Foreign System] [Foreign Document] in
private theorem exists_structLine {schema : Schema} (valid : schema.validate = .ok ())
    {struct : Struct} (listed : struct ∈ schema.structs) :
    ∃ line, structLine schema struct = .ok line := by
  obtain ⟨word, hashed⟩ := Schema.exists_structuralHash (Schema.closed_of_validate valid) listed []
  refine Outcome.exists_bind_eq_ok ⟨word, ?_⟩ fun _ => ⟨_, rfl⟩
  rw [hashed]
  rfl

omit [Foreign System] [Foreign Document] in
/-- An output of clean inputs has a text, unless it is a Python module with a name that is
refused. -/
private theorem name_of_text {schema : Schema} (valid : schema.validate = .ok ())
    (renderable : ∀ struct ∈ schema.structs, struct.IsRenderable) {options : Options}
    {inputs : List Raw} (clean : ∀ path ∈ inputs, path.IsClean) {files : List Output}
    (planned : outputs options schema inputs = .ok files) {output : Output}
    (member : output ∈ files) {cause : TextFault} (none : output.text = .error cause) :
    ∃ name, cause = .pythonModule (.name name) := by
  obtain ⟨pythonOutputs, matlabOutputs, rfl, python, matlab⟩ := outputs_eq_ok planned
  rcases List.mem_append.mp member with inPython | inMatlab
  · rcases python with rfl | rfl
    · cases inPython
    · obtain rfl := List.mem_singleton.mp inPython
      have names : ∀ name ∈ inputs.map Path.baseName, name.IsClean := by
        intro name listed
        obtain ⟨path, given, rfl⟩ := List.mem_map.mp listed
        exact (clean path given).subset (Path.parentAndName_subset path).2
      obtain ⟨source, spelt⟩ := Text.Raw.IsClean.exists_text
        (Text.Raw.IsClean.intercalate ", " (Text.Raw.isClean_ofString ", " (by decide)) names)
      unfold moduleText at none
      rw [spelt] at none
      cases made : (Backend.pythonModule schema (some (Raw.shown _)) []).1 with
      | error fault =>
          rw [made] at none
          obtain rfl := Except.error.inj none
          obtain ⟨name, rfl⟩ := Backend.name_of_pythonModule valid renderable _ [] made
          exact ⟨name, rfl⟩
      | ok text =>
          rw [made] at none
          cases none
  · rcases matlab with rfl | ⟨made, -, rfl⟩
    · cases inMatlab
    · obtain ⟨file, -, rfl⟩ := List.mem_map.mp inMatlab
      cases none

omit [Foreign System] in
private theorem isExpected_of_due [Foreign System] (expected : system.IsExpected) {path : Raw}
    {isLazy : Bool} {inputs : List Raw} (clean : path.IsClean)
    (each : ∀ input ∈ inputs, input.IsClean) {cause : System}
    (failed : due system isLazy inputs path tree = .error cause) :
    Foreign.isExpected cause = true := by
  unfold due at failed
  split at failed
  · cases failed
  rcases Outcome.bind_eq_error.mp failed with untold | ⟨status, -, asked⟩
  · exact expected.status clean untold
  clear failed
  induction inputs with
  | nil => cases asked
  | cons input rest ih =>
      obtain ⟨here, later⟩ := List.forall_mem_cons.mp each
      rw [youngerOn] at asked
      rcases Outcome.bind_eq_error.mp asked with untold | ⟨other, -, asked⟩
      · exact expected.status here untold
      · split at asked
        · cases asked
        · exact ih later asked

private theorem isReported_of_deliver (expected : system.IsExpected)
    (sound : IsSound system yaml tree arguments) (clean : IsClean arguments)
    (prepared : prepare system yaml arguments tree = .ok work) {before after : Progress Tree Node}
    (failed : deliver system arguments work before = .error fault after) :
    fault.isReported = true := by
  obtain ⟨options, texts, -, read, defined, planned, -⟩ := prepare_eq_ok_iff.mp prepared
  obtain ⟨-, valid⟩ := Schema.ofTexts_eq_ok_iff.mp defined
  have renderable := sound.isRenderable read defined
  have delivered := delivery Document system arguments work before
  rw [failed] at delivered
  cases delivered with
  | unplaced made => exact expected.makeDirectories clean.outdir made
  | unsummarized member unknown made emitted =>
      obtain ⟨line, shown⟩ := exists_structLine valid member
      rw [unknown] at shown
      cases shown
  | stopped made emitted =>
      obtain ⟨fates, output, later, reached, whole, -, stopped⟩ :=
        reached_of_emitAll_eq_error (fun _ _ => True)
          (fun _ _ _ _ _ _ _ _ _ => trivial) trivial emitted
      have member : output ∈ work.outputs := whole ▸ List.mem_append_right _ List.mem_cons_self
      have path := Path.isClean_join clean.outdir ((names_of_prepare prepared).2 output member)
      cases stopped with
      | unasked failed => exact isExpected_of_due expected path clean.inputs failed
      | @untold isDue reached handled unspelt =>
          obtain ⟨line, spelt⟩ := Text.Raw.IsClean.exists_text (Text.Raw.IsClean.append
            (Text.Raw.isClean_ofString (if isDue then "  wrote " else "  skipped ")
              (by cases isDue <;> decide)) path)
          rw [emissionLine, spelt] at unspelt
          cases unspelt
      | unwritten due failed =>
          cases failed with
          | refused closed => exact expected.openFile path closed
          | broken opened some unwritten => exact expected.write unwritten
          | textless opened none =>
              obtain ⟨name, rfl⟩ :=
                name_of_text valid renderable clean.inputs planned member none
              rfl

/-! ### Command lines -/

/-- **Every command line ends with a status**, and a run that fails tells why in its last line. -/
theorem status_of_run (expected : system.IsExpected) (clean : ∀ word ∈ words, word.IsClean)
    (sound : ∀ arguments, CommandLine.read words = .ok (.run arguments) →
      IsSound system yaml tree arguments) :
    (∃ status ≤ 2, (runOn system yaml tree words).ending.status? = some status) ∧
      ∀ fault, (runOn system yaml tree words).ending = .failed fault →
        (runOn system yaml tree words).ending.status? = some 1 ∧
          ∃ shown, (runOn system yaml tree words).output =
            shown ++ ("Error: " ++ fault.message ++ "\n") := by
  have reported (fault : Fault System Document)
      (failed : (runOn system yaml tree words).ending = .failed fault) :
      (runOn system yaml tree words).ending.status? = some 1 ∧
        ∃ shown, (runOn system yaml tree words).output =
          shown ++ ("Error: " ++ fault.message ++ "\n") := by
    obtain ⟨arguments, read, stopped⟩ := exists_of_failed failed
    have paths := isClean_of_read clean read
    have known : fault.isReported = true := by
      rcases stopped with ⟨unprepared, -⟩ | ⟨work, after, prepared, undelivered, -⟩
      · exact isReported_of_prepare (sound arguments read) paths unprepared
      · exact isReported_of_deliver expected (sound arguments read) paths prepared undelivered
    refine ⟨by rw [failed, Ending.status?, if_pos known], ?_⟩
    rcases stopped with ⟨-, same⟩ | ⟨_, after, -, -, same⟩
    · exact ⟨_, by rw [same, upshotOf, if_pos known]; rfl⟩
    · exact ⟨_, by rw [same, upshotOf, if_pos known]; rfl⟩
  refine ⟨?_, reported⟩
  cases ended : (runOn system yaml tree words).ending with
  | done => exact ⟨0, by decide, rfl⟩
  | helped => exact ⟨0, by decide, rfl⟩
  | misused misuse => exact ⟨2, by decide, rfl⟩
  | failed fault => exact ⟨1, by decide, ended ▸ (reported fault ended).1⟩

/-- A run on a struct whose name is a keyword ends with status 1 and a report. -/
theorem status_of_keyword_struct :
    let tree : FileTree := ⟨[(["a.lcm"], .file "struct for \x7b double x[3]; \x7d" (.time 1))]⟩
    let words := ["a.lcm", "--outdir", "gen"].map Raw.ofString
    let outcome := runOn FileTree.system Wireform.Document.yaml tree words
    let fault : RunFault := .pythonModule (.name (.classKeyword "for"))
    (∀ word ∈ words, word.IsClean) ∧ outcome.ending = .failed fault ∧
      outcome.ending.status? = some 1 ∧
      ∃ shown, outcome.output = shown ++ ("Error: " ++ fault.message ++ "\n") := by
  intro tree words outcome fault
  let struct : Struct := ⟨"for", [⟨"x", .primitive .double, [.constant "3"]⟩], 2445634471143355738⟩
  have line : CommandLine.read words =
      .ok (.run { inputs := [Raw.ofString "a.lcm"], outdir := Raw.ofString "gen" }) := by
    decide +kernel
  have clean : ∀ word ∈ words, word.IsClean := by
    have unended : ∀ word ∈ ["a.lcm", "--outdir", "gen"], Char.ofNat 0 ∉ word.toList := by decide
    intro word listed
    obtain ⟨text, member, rfl⟩ := List.mem_map.mp listed
    exact Raw.isClean_ofString text (unended text member)
  have unconfigured : (FileTree.system.read [] tree).isOk = false := by decide +kernel
  have texts : ([Raw.ofString "a.lcm"].mapM fun path => FileTree.system.read path tree) =
      .ok ["struct for \x7b double x[3]; \x7d"] := by
    decide +kernel
  have schema : Schema.ofTexts ["struct for \x7b double x[3]; \x7d"] = .ok ⟨[struct]⟩ := by
    decide +kernel
  have sized : (SizePlan.ofStruct struct).map SizePlan.constantBytes = .ok 24 := by decide +kernel
  have measured : struct.IsMeasured := by
    constructor
    · have decimal : ∀ member ∈ struct.members, ∀ dimension ∈ member.dimensions,
          dimension.size.toList.all Text.isDecimal = true ∧ dimension.size.length ≤ 1 := by
        decide +kernel
      intro member listed dimension present _
      obtain ⟨digits, short⟩ := decimal member listed dimension present
      exact ⟨List.all_eq_true.mp digits, short.trans (show 1 ≤ 4300 by decide)⟩
    · intro plan planned
      rw [planned] at sized
      rw [show plan.constantBytes = 24 from Except.ok.inj sized]
      exact lt_of_lt_of_le (show 24 < 10 ^ 2 by decide)
        (Nat.pow_le_pow_right (by decide) (show 2 ≤ 4300 by decide))
  have sound : ∀ arguments, CommandLine.read words = .ok (.run arguments) →
      IsSound FileTree.system Wireform.Document.yaml tree arguments := by
    intro arguments read
    obtain rfl := Request.run.inj (Except.ok.inj (line.symm.trans read))
    refine ⟨fun path paths => FileTree.isExpected_of_read paths, fun text found => ?_,
      fun others found read defined other member => ?_⟩
    · change FileTree.system.read [] tree = .ok text at found
      rw [found] at unconfigured
      cases unconfigured
    · obtain rfl := Except.ok.inj (texts.symm.trans read)
      obtain rfl := Except.ok.inj (schema.symm.trans defined)
      obtain rfl := List.mem_singleton.mp member
      exact measured
  have failed : outcome.ending = .failed fault := by
    subst outcome words tree fault
    decide +kernel
  exact ⟨clean, failed, (status_of_run FileTree.isExpected clean sound).2 fault failed⟩

/-- A run on an array whose extent is written with a raised digit ends without a status. -/
theorem no_status_of_raised_digit :
    let tree : FileTree := ⟨[(["a.lcm"], .file "struct a \x7b int32_t x[²]; \x7d" (.time 1))]⟩
    let outcome := run tree ["a.lcm", "--outdir", "gen"]
    outcome.ending.status? = none ∧ outcome.output = "" := by
  decide +kernel

end Generator

end Wireform
