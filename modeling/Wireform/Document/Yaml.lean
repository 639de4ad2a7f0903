import Wireform.Document.Content
import Wireform.Document.Reader
import Wireform.Options

/-!
# Options in documents

The reader of YAML documents that programs are run with. An object is a node of a document, or
nothing where a text holds no document.

- `Document.yaml` is the reader
- `Options.ofText` are the options that it finds in a text
-/

namespace Wireform

namespace Document

instance : Foreign Fault where
  isExpected fault := fault = .malformed
  wording fault := if fault = .malformed then "" else fault.message

/-- What a node is, as far as options ask. -/
def shape (document : Document) (position : Nat) : Shape (Option (Document × Nat)) :=
  match document.content position with
  | .ok (.atom .null) => .null
  | .ok (.atom (.truth value)) => .truth value
  | .ok (.mapping entries) => .mapping fun name =>
      (entries.find? fun entry => entry.1.sameKey (.text name)).map fun entry =>
        some (document, entry.2)
  | _ => .other

/-- The reader of documents. A document is looked through for faults as a whole when it is read. -/
def yaml : Yaml (Option (Document × Nat)) Fault where
  load text := do
    match ← read text with
    | none => return none
    | some document =>
        let _ ← document.checked
        return some (document, document.root)
  shape
    | none => .null
    | some (document, position) => document.shape position
  text
    | none => .ok "None"
    | some (document, position) => document.render position

end Document

/-- Why an options file is not accepted. -/
abbrev OptionsFault := Options.Fault Document.Fault

/-- The options in a text. -/
def Options.ofText (text : String) : Except OptionsFault Options := Options.parse Document.yaml text

end Wireform
