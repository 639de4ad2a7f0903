/-!
# Primitive types

The types that a message member can have without naming a struct. A primitive is known by its name
in type definitions, and has a fixed encoded width, except `string`, whose encoding carries its own
length.

- `Primitive.name` and `Primitive.ofName?` relate a primitive to its name
- `Primitive.width?` is the number of bytes of one encoded value
- `Primitive.isInteger` tells which types may give the length of an array
-/

namespace Wireform

/-- A type that needs no definition. -/
inductive Primitive where
  | int8
  | int16
  | uint16
  | int32
  | uint32
  | int64
  | byte
  | float
  | double
  | boolean
  | string
  deriving DecidableEq, Repr

namespace Primitive

/-- Every primitive. -/
def all : List Primitive :=
  [int8, int16, uint16, int32, uint32, int64, byte, float, double, boolean, string]

/-- The name by which type definitions know a primitive. -/
def name : Primitive → String
  | int8 => "int8_t"
  | int16 => "int16_t"
  | uint16 => "uint16_t"
  | int32 => "int32_t"
  | uint32 => "uint32_t"
  | int64 => "int64_t"
  | byte => "byte"
  | float => "float"
  | double => "double"
  | boolean => "boolean"
  | string => "string"

/-- The primitive with a given name. -/
def ofName? (name : String) : Option Primitive :=
  all.find? (·.name == name)

/-- The bytes of one encoded value; a string's encoding has no fixed width. -/
def width? : Primitive → Option Nat
  | int8 | byte | boolean => some 1
  | int16 | uint16 => some 2
  | int32 | uint32 | float => some 4
  | int64 | double => some 8
  | string => none

/-- The byte order and type code of the encoding of one value, where it has a fixed width. -/
def packFormat? : Primitive → Option String
  | int8 => some ">b"
  | int16 => some ">h"
  | uint16 => some ">H"
  | int32 => some ">i"
  | uint32 => some ">I"
  | int64 => some ">q"
  | byte => some ">B"
  | float => some ">f"
  | double => some ">d"
  | boolean => some ">?"
  | string => none

/-- Whether members of this type may give the length of an array. -/
def isInteger : Primitive → Bool
  | int8 | int16 | uint16 | int32 | uint32 | int64 => true
  | byte | float | double | boolean | string => false

/-- The list of primitives is complete. -/
theorem mem_all (p : Primitive) : p ∈ all := by
  cases p <;> decide

/-- A primitive is found again by its name. -/
@[simp] theorem ofName?_name (p : Primitive) : ofName? p.name = some p := by
  cases p <;> decide +kernel

/-- Only the name of a primitive finds it. -/
theorem name_of_ofName? {name : String} {p : Primitive} (h : ofName? name = some p) :
    p.name = name := by
  have := List.find?_some h
  simpa using this

/-- A type has a fixed width exactly when it has a packing format. -/
theorem width?_isSome_iff (p : Primitive) : p.width?.isSome = p.packFormat?.isSome := by
  cases p <;> rfl

end Primitive

end Wireform
