import Wireform.Backend.MatlabFiles
import Wireform.Backend.PythonModule
import Wireform.CommandLine
import Wireform.Options
import Wireform.Source.Parser

/-!
# Runs of the generator

A run reads its options and its type definitions, and writes what the backends make of them. All of
the MATLAB text is there before the first file is touched, but the Python module is only asked for
when its file is open and empty. A lazy run leaves alone every file that is there and is not older
than any of the inputs.

A run reaches files through `Files`, so that it can be run on any file system and on a disk.

- `Generator.generate` is a run
- `Generator.Fault.isReported` tells the faults that a user is told about from those that are not
  expected
-/

namespace Wireform.Generator

open Text (Raw RawChar)

/-! ### Faults -/

/-- Why a run fails. -/
inductive Fault (System Document : Type) where
  | file (fault : System)
  | options (fault : Options.Fault Document)
  | moduleName (name : Raw)
  | definitions (fault : ReadFault)
  | plan (fault : PlanFault)
  | pythonModule (fault : Backend.ModuleFault)
  /-- A text cannot be written since it has bytes that belong to no character. -/
  | encoding (text : Raw)
  deriving DecidableEq, Repr

namespace Fault

variable {System Document : Type}

/-- The wording of a fault about a text with bytes that belong to no character: which of them come
first, and where. -/
def encodingMessage (text : Raw) : String :=
  let whole := text.takeWhile fun c => c.char?.isSome
  let bytes := (text.dropWhile fun c => c.char?.isSome).takeWhile fun c => c.char?.isNone
  let place := match bytes with
    | [byte] => "character '" ++ Raw.shown [byte] ++ "' in position " ++ toString whole.length
    | _ => "characters in position " ++ toString whole.length ++ "-"
        ++ toString (whole.length + bytes.length - 1)
  "'utf-8' codec can't encode " ++ place ++ ": surrogates not allowed"

/-- The wording of a fault. -/
def message [Foreign System] [Foreign Document] : Fault System Document → String
  | file fault => Foreign.wording fault
  | options fault => fault.message
  | moduleName name => "--module must be a Python identifier, got " ++ name.quote
  | definitions fault => fault.message
  | plan fault => fault.message
  | pythonModule fault => fault.message
  | encoding text => encodingMessage text

/-- Whether a fault is one that is reported. The others end a run without a report. -/
def isReported [Foreign System] [Foreign Document] : Fault System Document → Bool
  | file fault => Foreign.isExpected fault
  | options (.document fault) => Foreign.isExpected fault
  | options _ => true
  | moduleName _ => true
  | definitions (.source .pastEnd) => false
  | definitions _ => true
  | plan _ => false
  | pythonModule (.name _) => true
  | pythonModule (.plan _) => false
  | encoding _ => false

/-- The line in which a fault is reported. -/
def report [Foreign System] [Foreign Document] (fault : Fault System Document) : String :=
  "Error: " ++ fault.message

end Fault

/-! ### Outputs -/

/-- How a run reaches files, and the one who started it. -/
structure Files (System Document : Type) (m : Type → Type) (Handle : Type) where
  /-- The text of the file at a path. -/
  read : Raw → m String
  /-- Whether a path leads to something. -/
  isPresent : Raw → m Bool
  /-- The stamp of what is at a path. -/
  stamp : Raw → m Stamp
  /-- Makes a directory, and those it is in. -/
  makeDirectories : Raw → m Unit
  /-- Empties or makes the file at a path. -/
  openFile : Raw → m Handle
  /-- Sets the text of a file that was opened. -/
  fill : Handle → String → m Unit
  /-- Writes a line for the user. -/
  say : Raw → m Unit
  /-- Ends the run by a fault. -/
  fail : {α : Type} → Fault System Document → m α

/-- Why a file has no text. -/
inductive TextFault where
  | pythonModule (fault : Backend.ModuleFault)
  /-- The text has bytes that belong to no character. It is known up to them. -/
  | encoding (text : Raw)
  deriving DecidableEq, Repr

/-- A fault of a text as one of a run. -/
def TextFault.toFault {System Document : Type} : TextFault → Fault System Document
  | pythonModule fault => .pythonModule fault
  | encoding text => .encoding text

/-- A file to be written, and its text unless there is none. -/
structure Output where
  name : String
  text : Except TextFault String

variable {System Document : Type}

/-- The options after the switches of the command line. -/
def adjust (arguments : Arguments) (options : Options) :
    Except (Fault System Document) Options := do
  let pythonModule ← match arguments.moduleName.getD [] with
    | [] => pure options.pythonModule
    | name => match name.text?.filter (Text.isIdentifier ·.toList) with
      | some name => pure name
      | none => throw (.moduleName name)
  return {
    python := options.python && !arguments.noPython
    pythonModule
    matlab := options.matlab || arguments.matlab
    lazy := options.lazy || arguments.lazy }

/-- The text of the Python module, in which the names of the inputs stand. The text is made before
it shows that it cannot be written. -/
def moduleText (schema : Schema) (source : Raw) : Except TextFault String :=
  match (Backend.pythonModule schema (some source.shown) []).1, source.text? with
  | .error fault, _ => .error (.pythonModule fault)
  | .ok text, some _ => .ok text
  | .ok _, none => .error (.encoding (Raw.ofString Backend.headerStart ++ source))

/-- The files to be written, the Python module before the MATLAB files. -/
def outputs (options : Options) (schema : Schema) (inputs : List Raw) :
    Except PlanFault (List Output) := do
  let source := Raw.intercalate ", " (inputs.map Path.baseName)
  let pythonOutputs : List Output :=
    if options.python then [⟨options.pythonModule ++ ".py", moduleText schema source⟩] else []
  let matlabOutputs : List Output ←
    if options.matlab then do
      pure ((← (Backend.matlabFiles schema []).1).map fun (name, text) => ⟨name, .ok text⟩)
    else pure []
  return pythonOutputs ++ matlabOutputs

/-! ### Runs -/

/-- The line about a struct in the summary of a run. -/
def structLine (schema : Schema) (struct : Struct) : Except PlanFault String := do
  let fingerprint ← (schema.structuralHash struct []).mapError .unknownType
  return "  " ++ struct.name ++ ": fingerprint=0x" ++ Text.hexText 16 fingerprint.toNat

/-- The line with the counts in the summary of a run, after an empty one. -/
def countLine (schema : Schema) (written : Nat) : String :=
  "\nGenerated " ++ toString written ++ " file(s) for " ++ toString schema.structs.length
    ++ " type(s)"

/-- The line about an output. -/
def emissionLine (isWritten : Bool) (path : Raw) : Raw :=
  Raw.ofString (if isWritten then "  wrote " else "  skipped ") ++ path

section Run

variable {m : Type → Type} [Monad m] {Handle Object : Type}

/-- A result, or its fault as a fault of the run. -/
def settle {ε α : Type} (files : Files System Document m Handle)
    (asFault : ε → Fault System Document) : Except ε α → m α
  | .ok value => pure value
  | .error fault => files.fail (asFault fault)

/-- The options of a run. An empty name stands for no options file. -/
def readOptions (yaml : Yaml Object Document) (files : Files System Document m Handle)
    (arguments : Arguments) : m Options := do
  let options ← match arguments.config.getD [] with
    | [] => pure {}
    | path => do settle files .options (Options.parse yaml (← files.read path))
  settle files id (adjust arguments options)

/-- Whether one of some files is younger than a stamp. They are looked at in turn. -/
def anyYounger (files : Files System Document m Handle) (written : Stamp) : List Raw → m Bool
  | [] => pure false
  | input :: rest => do
      if (← files.stamp input).isAfter written then return true
      anyYounger files written rest

/-- Whether an output is missing or older than an input. -/
def needsGeneration (files : Files System Document m Handle) (inputs : List Raw) (path : Raw) :
    m Bool := do
  if !(← files.isPresent path) then return true
  let written ← files.stamp path
  anyYounger files written inputs

/-- Writes one file. Its text is asked for when the file is open. -/
def writeOutput (files : Files System Document m Handle) (path : Raw) (output : Output) :
    m Unit := do
  let handle ← files.openFile path
  files.fill handle (← settle files TextFault.toFault output.text)

/-- Writes one file, unless the run is lazy and the file is current. Tells whether it was
written. -/
def emit (files : Files System Document m Handle) (isLazy : Bool) (inputs : List Raw)
    (outdir : Raw) (output : Output) : m Bool := do
  let path := Path.join outdir output.name
  let isDue ← if isLazy then needsGeneration files inputs path else pure true
  if isDue then writeOutput files path output
  files.say (emissionLine isDue path)
  return isDue

/-- Writes files in turn. Tells how many were written. -/
def emitAll (files : Files System Document m Handle) (isLazy : Bool) (inputs : List Raw)
    (outdir : Raw) : List Output → m Nat
  | [] => pure 0
  | output :: rest => do
      let written ← emit files isLazy inputs outdir output
      let others ← emitAll files isLazy inputs outdir rest
      return (if written then 1 else 0) + others

/-- A run. -/
def generate (yaml : Yaml Object Document) (files : Files System Document m Handle)
    (arguments : Arguments) : m Unit := do
  let options ← readOptions yaml files arguments
  let texts ← arguments.inputs.mapM files.read
  let schema ← settle files .definitions (Schema.ofTexts texts)
  let outputs ← settle files .plan (outputs options schema arguments.inputs)
  files.makeDirectories arguments.outdir
  let written ← emitAll files options.lazy arguments.inputs arguments.outdir outputs
  files.say (Raw.ofString (countLine schema written))
  schema.structs.forM fun struct => do
    files.say (Raw.ofString (← settle files .plan (structLine schema struct)))

end Run

end Wireform.Generator
