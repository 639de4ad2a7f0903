import Wireform.Schema.Basic

/-!
# Names and layout of generated code

Generated code knows a type by its qualified name with underscores in place of the dots. MATLAB
code knows a primitive by the storage class of its values instead.

Generated code is a list of lines, each with the depth at which it stands. A block is a header over
a body that stands one level deeper; in some languages a closing line follows it. Building code
from blocks keeps the depths right without counting them.

- `flatName` and `matlabName` are the names of a type
- `block` and `closedBlock` put a body below a header
- `layOut` writes lines out, four blanks for a level
-/

namespace Wireform.Backend

/-! ### Names -/

/-- A qualified name with underscores in place of its dots. -/
def flatName (name : String) : String :=
  String.ofList (name.toList.map fun c => if c = '.' then '_' else c)

/-- The MATLAB class that stores the values of a primitive. -/
def storageClass : Primitive → String
  | .int8 => "int8"
  | .int16 => "int16"
  | .uint16 => "uint16"
  | .int32 => "int32"
  | .uint32 => "uint32"
  | .int64 => "int64"
  | .byte => "uint8"
  | .float => "single"
  | .double => "double"
  | .boolean => "logical"
  | .string => "string"

/-- The stem of the MATLAB functions for a type name. -/
def matlabName (name : String) : String :=
  match Primitive.ofName? name with
  | some p => storageClass p
  | none => flatName name

/-! ### Lines -/

/-- A line of generated code and the depth at which it stands. -/
structure Line where
  depth : Nat
  text : String
  deriving DecidableEq, Repr

namespace Line

/-- The line one level deeper. -/
def deeper (line : Line) : Line := { line with depth := line.depth + 1 }

/-- An empty line. -/
def blank : Line := ⟨0, ""⟩

/-- The blanks of one level. -/
def indent : String := "    "

/-- The written form of a line. An empty line has no blanks. -/
def render (line : Line) : String :=
  if line.text.isEmpty then "" else String.join (List.replicate line.depth indent) ++ line.text

end Line

/-- A line at the outermost level. -/
def plain (text : String) : Line := ⟨0, text⟩

/-- Lines one level deeper. -/
def deeper (lines : List Line) : List Line := lines.map Line.deeper

/-- A header over its body. -/
def block (header : String) (body : List Line) : List Line :=
  plain header :: deeper body

/-- A header over its body, and the line that closes it. -/
def closedBlock (header : String) (body : List Line) (close : String) : List Line :=
  plain header :: (deeper body ++ [plain close])

/-- The text of some lines. -/
def layOut (lines : List Line) : String :=
  String.intercalate "\n" (lines.map Line.render) ++ "\n"

/-- No lines have no depth. -/
@[simp] theorem deeper_nil : deeper [] = [] := rfl

/-- Each line gets deeper. -/
@[simp] theorem deeper_cons (line : Line) (lines : List Line) :
    deeper (line :: lines) = line.deeper :: deeper lines := rfl

/-- Joined lines get deeper together. -/
@[simp] theorem deeper_append (first second : List Line) :
    deeper (first ++ second) = deeper first ++ deeper second := by
  simp [deeper]

end Wireform.Backend
