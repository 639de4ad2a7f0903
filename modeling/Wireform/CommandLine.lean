import Wireform.Text.Digit
import Wireform.Text.Quoted

/-!
# The command line

A command line has switches and operands. A switch is known by its full spelling or by a start of it
that no other switch has, and its value follows it as the next word or after an equals sign. The
operands are the input files. They stand together: a second group of them is not recognized. After
the word `--` every word is an operand. Words are raw texts, since a path can hold any bytes.

- `CommandLine.read` is what a command line asks for
- `UsageFault.report` is what is written about a command line that cannot be followed
-/

namespace Wireform

open Text (Raw RawChar)

/-- What a run is asked to do. -/
structure Arguments where
  inputs : List Raw
  outdir : Raw
  config : Option Raw := none
  moduleName : Option Raw := none
  noPython : Bool := false
  matlab : Bool := false
  lazy : Bool := false
  deriving DecidableEq, Repr

/-- A switch of the command line. -/
inductive Switch where
  | help
  | outdir
  | config
  | moduleName
  | noPython
  | matlab
  | lazy
  deriving DecidableEq, Repr

namespace Switch

/-- All switches, in the order in which they are listed. -/
def all : List Switch := [help, outdir, config, moduleName, noPython, matlab, lazy]

/-- The full spelling of a switch. -/
def spelling : Switch → String
  | help => "--help"
  | outdir => "--outdir"
  | config => "--config"
  | moduleName => "--module"
  | noPython => "--no-python"
  | matlab => "--matlab"
  | lazy => "--lazy"

/-- The name of a switch in a message. -/
def label : Switch → String
  | help => "-h/--help"
  | switch => switch.spelling

/-- Whether a switch takes a value. -/
def takesValue : Switch → Bool
  | outdir | config | moduleName => true
  | _ => false

/-- The switch with a given spelling. -/
def ofSpelling? (text : Raw) : Option Switch :=
  if text = .ofString "-h" then some help
  else all.find? fun switch => Raw.ofString switch.spelling = text

/-- The switches whose spellings start with a text. -/
def startingWith (text : Raw) : List Switch :=
  all.filter fun switch => text.isPrefixOf (Raw.ofString switch.spelling)

end Switch

/-- Why a command line cannot be followed. -/
inductive UsageFault where
  | ambiguous (word : Raw) (candidates : List Switch)
  | valueMissing (switch : Switch)
  | valueUnwanted (switch : Switch) (value : Raw)
  | required (names : List String)
  | unrecognized (words : List Raw)
  deriving DecidableEq, Repr

/-- The wording of a fault. -/
def UsageFault.message : UsageFault → String
  | ambiguous word candidates =>
      "ambiguous option: " ++ word.shown ++ " could match "
        ++ String.intercalate ", " (candidates.map Switch.spelling)
  | valueMissing switch => "argument " ++ switch.label ++ ": expected one argument"
  | valueUnwanted switch value =>
      "argument " ++ switch.label ++ ": ignored explicit argument " ++ value.quote
  | required names => "the following arguments are required: " ++ String.intercalate ", " names
  | unrecognized words =>
      "unrecognized arguments: " ++ String.intercalate " " (words.map Raw.shown)

/-- What a command line asks for. -/
inductive Request where
  | help
  | run (arguments : Arguments)
  deriving DecidableEq, Repr

namespace CommandLine

/-- The lines that show how the program is called. -/
def usage : String :=
  "usage: lcmgen [-h] --outdir OUTDIR [--config CONFIG] [--module MODULE]\n"
    ++ "              [--no-python] [--matlab] [--lazy]\n"
    ++ "              lcm [lcm ...]\n"

/-- The text that is written on request. -/
def help : String :=
  usage ++ "\nLCM type code generator\n"
    ++ "\npositional arguments:\n"
    ++ "  lcm              Input .lcm file(s)\n"
    ++ "\noptions:\n"
    ++ "  -h, --help       show this help message and exit\n"
    ++ "  --outdir OUTDIR  Output directory\n"
    ++ "  --config CONFIG  YAML options file\n"
    ++ "  --module MODULE  Name of the generated Python module (default: lcmtypes)\n"
    ++ "  --no-python      Do not generate the Python module\n"
    ++ "  --matlab         Generate MATLAB .m files\n"
    ++ "  --lazy           Only rewrite outputs older than their inputs\n"

/-! ### Words -/

/-- What a word of a command line is. -/
inductive Word where
  | operand (text : Raw)
  /-- The word after which all words are operands. -/
  | separator
  | switch (switch : Switch) (attached : Option Raw)
  | unknown (text : Raw)
  deriving DecidableEq, Repr

/-- A text up to its first equals sign, and what comes after that sign if there is one. -/
def splitAtEquals (text : Raw) : Raw × Option Raw :=
  (text.takeWhile (· ≠ .char '='),
    match text.dropWhile (· ≠ .char '=') with
    | [] => none
    | _ :: value => some value)

/-- Whether a character of a word is a decimal digit. -/
def isDecimal (c : RawChar) : Bool := c.char?.any Text.isDecimal

/-- Whether a word is a negative number, perhaps with a line break after it. -/
def isNegativeNumber (word : Raw) : Bool :=
  let number := if word.getLast? = some (.char '\n') then word.dropLast else word
  match number with
  | .char '-' :: digits =>
      let fraction := (digits.dropWhile isDecimal).drop 1
      (!digits.isEmpty && digits.all isDecimal)
        || ((digits.dropWhile isDecimal).head? = some (.char '.')
            && !fraction.isEmpty && fraction.all isDecimal)
  | _ => false

/-- The meaning of what is attached to `-h`. More letters may follow, and what is no letter of a
switch is passed over, but a value is not. -/
def helpCluster : (attached : Raw) → Word
  | [] => .switch .help none
  | .char 'h' :: .char '=' :: value => .switch .help (some value)
  | .char 'h' :: rest => helpCluster rest
  | .char '-' :: rest => .switch .help (some (.char '-' :: rest))
  | _ :: _ => .switch .help none

/-- The meaning of a word that starts with one dash or two and is no full spelling of a switch. -/
def dashedWord (word : Raw) : Except UsageFault Word :=
  let (start, value) := splitAtEquals word
  let leftOver : Word :=
    if isNegativeNumber word || word.contains (.char ' ') then .operand word else .unknown word
  match value, Switch.ofSpelling? start with
  | some value, some switch => .ok (.switch switch (some value))
  | value, _ =>
      match word with
      | .char '-' :: .char '-' :: _ =>
          match Switch.startingWith start with
          | [] => .ok leftOver
          | [switch] => .ok (.switch switch value)
          | candidates => .error (.ambiguous word candidates)
      | .char '-' :: .char 'h' :: rest => .ok (helpCluster rest)
      | _ => .ok leftOver

/-- The meaning of a word before any separator. -/
def wordOf (word : Raw) : Except UsageFault Word :=
  match word with
  | .char '-' :: _ :: _ =>
      match Switch.ofSpelling? word with
      | some switch => .ok (.switch switch none)
      | none => dashedWord word
  | _ => .ok (.operand word)

/-- The meanings of the words of a command line. -/
def words : List Raw → Except UsageFault (List Word)
  | [] => .ok []
  | word :: rest =>
      if word = .ofString "--" then .ok (.separator :: rest.map .operand)
      else do
        let first ← wordOf word
        return first :: (← words rest)

/-! ### What the words ask for -/

/-- What was gathered from the words so far. -/
structure Gathered where
  inputs : List Raw := []
  /-- Whether the last word was an input, so that the next operand is one too. -/
  amongInputs : Bool := false
  outdir : Option Raw := none
  config : Option Raw := none
  moduleName : Option Raw := none
  noPython : Bool := false
  matlab : Bool := false
  lazy : Bool := false
  /-- Words that mean nothing, in their order. -/
  extras : List Raw := []
  deriving DecidableEq, Repr

namespace Gathered

/-- Whether an operand would be an input. -/
def takesInputs (gathered : Gathered) : Bool :=
  gathered.inputs.isEmpty || gathered.amongInputs

/-- Adds an operand. -/
def addOperand (gathered : Gathered) (text : Raw) : Gathered :=
  if gathered.takesInputs then
    { gathered with inputs := gathered.inputs ++ [text], amongInputs := true }
  else { gathered with extras := gathered.extras ++ [text] }

/-- Adds a separator, which is passed over where operands are inputs. -/
def addSeparator (gathered : Gathered) : Gathered :=
  if gathered.takesInputs then gathered
  else { gathered with extras := gathered.extras ++ [.ofString "--"] }

/-- Adds a word that means nothing. -/
def addUnknown (gathered : Gathered) (text : Raw) : Gathered :=
  { gathered with extras := gathered.extras ++ [text], amongInputs := false }

/-- Adds a switch with its value. The last value of a switch counts. -/
def addValue (gathered : Gathered) (switch : Switch) (value : Raw) : Gathered :=
  let gathered := { gathered with amongInputs := false }
  match switch with
  | .outdir => { gathered with outdir := some value }
  | .config => { gathered with config := some value }
  | .moduleName => { gathered with moduleName := some value }
  | _ => gathered

/-- Adds a switch without a value. -/
def addFlag (gathered : Gathered) (switch : Switch) : Gathered :=
  let gathered := { gathered with amongInputs := false }
  match switch with
  | .noPython => { gathered with noPython := true }
  | .matlab => { gathered with matlab := true }
  | .lazy => { gathered with lazy := true }
  | _ => gathered

/-- The request that was gathered. What is missing is told before what means nothing. -/
def request (gathered : Gathered) : Except UsageFault Request :=
  match gathered.inputs, gathered.outdir with
  | [], none => .error (.required ["lcm", "--outdir"])
  | [], some _ => .error (.required ["lcm"])
  | _ :: _, none => .error (.required ["--outdir"])
  | inputs, some outdir =>
      if gathered.extras.isEmpty then
        .ok (.run { gathered with inputs, outdir })
      else .error (.unrecognized gathered.extras)

end Gathered

/-- Gathers the words from left to right. A request for help ends this at once. -/
def gather : List Word → Gathered → Except UsageFault Request
  | [], gathered => gathered.request
  | .operand text :: rest, gathered => gather rest (gathered.addOperand text)
  | .separator :: rest, gathered => gather rest gathered.addSeparator
  | .unknown text :: rest, gathered => gather rest (gathered.addUnknown text)
  | .switch switch (some value) :: rest, gathered =>
      if switch.takesValue then gather rest (gathered.addValue switch value)
      else .error (.valueUnwanted switch value)
  | .switch .help none :: _, _ => .ok .help
  | .switch switch none :: .operand value :: rest, gathered =>
      if switch.takesValue then gather rest (gathered.addValue switch value)
      else gather (.operand value :: rest) (gathered.addFlag switch)
  | .switch switch none :: rest, gathered =>
      if switch.takesValue then .error (.valueMissing switch)
      else gather rest (gathered.addFlag switch)

/-- What a command line asks for. -/
def read (arguments : List Raw) : Except UsageFault Request := do
  gather (← words arguments) {}

end CommandLine

/-- What is written about a command line that cannot be followed. -/
def UsageFault.report (fault : UsageFault) : String :=
  CommandLine.usage ++ "lcmgen: error: " ++ fault.message ++ "\n"

end Wireform
