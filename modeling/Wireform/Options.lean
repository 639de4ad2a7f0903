import Wireform.FileSystem
import Wireform.Text.Identifier

/-!
# Options of a run

An options file is a YAML document with the sections `python` and `matlab` and the flag `lazy`, all
of them optional. What is absent or null keeps its default, and other keys are ignored. Faults are
looked for in a fixed order: the document, the Python section, the MATLAB section, the flag.

Documents are read by a library, which is known here by what it makes of a text: `Yaml.load` gives
an object or a fault, and of an object no more is asked than its shape and its text.

- `Options.parse` are the options in the text of an options file
-/

namespace Wireform

open Text (Raw)

/-- Which backends run, and how. -/
structure Options where
  python : Bool := true
  pythonModule : String := "lcmtypes"
  matlab : Bool := false
  lazy : Bool := false
  deriving DecidableEq, Repr

/-- What an object of a document is, as far as options ask. -/
inductive Shape (Object : Type) where
  | null
  | truth (value : Bool)
  /-- The objects at the keys that are texts. -/
  | mapping (object? : String → Option Object)
  | other

/-- A reader of YAML documents. -/
structure Yaml (Object Fault : Type) where
  /-- The object that a text stands for. A text without a document stands for null. -/
  load : String → Except Fault Object
  shape : Object → Shape Object
  /-- The text of an object. -/
  text : Object → Except Fault String

namespace Options

/-- Why an options file is not accepted. -/
inductive Fault (Document : Type) where
  | document (fault : Document)
  | rootNotMapping
  | sectionNotMapping (name : String)
  | flagNotTruth (name place : String)
  | moduleNotIdentifier (name : String)
  deriving DecidableEq, Repr

variable {Object Document : Type}

/-- The wording of a fault. That of a malformed document ends with what its reader tells. -/
def Fault.message [Foreign Document] : Fault Document → String
  | document fault =>
      let words := Foreign.wording fault
      if !Foreign.isExpected fault then words
      else if words.isEmpty then "Invalid YAML"
      else "Invalid YAML: " ++ words
  | rootNotMapping => "YAML root must be a mapping"
  | sectionNotMapping name => "'" ++ name ++ "' section must be a mapping"
  | flagNotTruth name place =>
      "Field '" ++ name ++ "' in " ++ place ++ " section must be true or false"
  | moduleNotIdentifier name =>
      "Field 'module' in python section must be a Python identifier, got " ++ Text.quote name

variable (yaml : Yaml Object Document)

/-- The object at a key, or nothing if the key is absent or null. -/
def field? (entries : String → Option Object) (name : String) : Option (Object × Shape Object) :=
  match entries name with
  | none => none
  | some object =>
      match yaml.shape object with
      | .null => none
      | shape => some (object, shape)

/-- The section at a key, which is empty if the key is absent or null. -/
def sectionAt (root : String → Option Object) (name : String) :
    Except (Fault Document) (String → Option Object) :=
  match field? yaml root name with
  | none => .ok fun _ => none
  | some (_, .mapping entries) => .ok entries
  | some _ => .error (.sectionNotMapping name)

/-- The flag at a key, or its default if the key is absent or null. -/
def flagAt (entries : String → Option Object) (name place : String) (default : Bool) :
    Except (Fault Document) Bool :=
  match field? yaml entries name with
  | none => .ok default
  | some (_, .truth value) => .ok value
  | some _ => .error (.flagNotTruth name place)

/-- The name of the Python module, or its default if it is absent or null. Whatever is written
counts by its text, which must be an identifier. -/
def moduleAt (entries : String → Option Object) (default : String) :
    Except (Fault Document) String := do
  let written : Except (Fault Document) String := match field? yaml entries "module" with
    | none => .ok default
    | some (object, _) => (yaml.text object).mapError .document
  let name ← written
  if Text.isIdentifier name.toList then return name else throw (.moduleNotIdentifier name)

/-- The options in an object. -/
def ofObject (object : Object) : Except (Fault Document) Options := do
  let defaults : Options := {}
  match yaml.shape object with
  | .null => return defaults
  | .mapping root =>
      let pythonSection ← sectionAt yaml root "python"
      let python ← flagAt yaml pythonSection "enabled" "python" defaults.python
      let pythonModule ← moduleAt yaml pythonSection defaults.pythonModule
      let matlabSection ← sectionAt yaml root "matlab"
      let matlab ← flagAt yaml matlabSection "enabled" "matlab" defaults.matlab
      let lazy ← flagAt yaml root "lazy" "root" defaults.lazy
      return { python, pythonModule, matlab, lazy }
  | _ => throw .rootNotMapping

/-- The options in a text. A text of blanks leaves the defaults. -/
def parse (text : String) : Except (Fault Document) Options := do
  if text.toList.all Text.isBlank then return {}
  ofObject yaml (← (yaml.load text).mapError .document)

end Options

end Wireform
