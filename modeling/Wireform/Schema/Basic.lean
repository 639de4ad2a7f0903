import Wireform.Primitive
import Wireform.Text.Numeral

/-!
# Schemas

A schema is a list of structs, each with a qualified name and a list of members. A member is an
array when it has dimensions, and a dimension is either a constant written in the definition or
the name of an earlier member that carries the length at run time.

- `FieldType` is what a member's type name stands for
- `Dimension.extent` reads the size of a constant dimension
- `Schema.lookup?` finds the first struct of a name
-/

namespace Wireform

/-- One array dimension. The mode enters the hash of a struct; zero is the mode of a constant. -/
structure Dimension where
  mode : Int
  /-- The literal extent, or the name of the member that carries the length. -/
  size : String
  deriving DecidableEq, Repr

namespace Dimension

/-- A dimension with an extent written in the definition. -/
def constant (size : String) : Dimension := ⟨0, size⟩

/-- A dimension whose extent is carried by a member. -/
def dynamic (size : String) : Dimension := ⟨1, size⟩

/-- Whether the extent is written in the definition. -/
def isConstant (dimension : Dimension) : Bool := dimension.mode == 0

/-- The extent of a constant dimension. -/
def extent (dimension : Dimension) : Except Numeral.Fault Int :=
  Numeral.read 10 dimension.size

@[simp] private theorem isConstant_constant (size : String) :
    (constant size).isConstant = true := rfl

@[simp] private theorem isConstant_dynamic (size : String) :
    (dynamic size).isConstant = false := rfl

end Dimension

/-- The type of a member: a primitive, or a struct by its qualified name. -/
inductive FieldType where
  | primitive (primitive : Primitive)
  | compound (name : String)
  deriving DecidableEq, Repr

namespace FieldType

/-- The type that a name stands for. -/
def ofName (name : String) : FieldType :=
  match Primitive.ofName? name with
  | some p => .primitive p
  | none => .compound name

/-- The name of a type. -/
def name : FieldType → String
  | .primitive p => p.name
  | .compound n => n

/-- Whether the type is a primitive. -/
def isPrimitive : FieldType → Bool
  | .primitive _ => true
  | .compound _ => false

/-- Whether members of this type may give the length of an array. -/
def isInteger : FieldType → Bool
  | .primitive p => p.isInteger
  | .compound _ => false

/-- The bytes of one encoded value, where they do not depend on the value. -/
def width? : FieldType → Option Nat
  | .primitive p => p.width?
  | .compound _ => none

/-- A type name survives being read as a type. -/
@[simp] theorem name_ofName (typeName : String) : (ofName typeName).name = typeName := by
  unfold ofName
  split
  · next p h => exact Primitive.name_of_ofName? h
  · rfl

end FieldType

/-- A member of a struct. -/
structure Member where
  name : String
  type : FieldType
  dimensions : List Dimension := []
  deriving DecidableEq, Repr

namespace Member

/-- Whether the member's elements are of a primitive type. -/
def isPrimitive (member : Member) : Bool := member.type.isPrimitive

/-- Whether the member holds more than one value. -/
def isArray (member : Member) : Bool := !member.dimensions.isEmpty

end Member

/-- The text after the last dot of a qualified name. -/
def lastPart (qualified : List Char) : List Char :=
  (qualified.reverse.takeWhile (· != '.')).reverse

/-- The text before the last dot of a qualified name, and nothing where there is no dot. -/
def packagePart (qualified : List Char) : List Char :=
  ((qualified.reverse.dropWhile (· != '.')).drop 1).reverse

/-- A named list of members. The base hash is the seed of the struct's fingerprint. -/
structure Struct where
  name : String
  members : List Member
  baseHash : Int := 0
  deriving DecidableEq, Repr

namespace Struct

/-- The name without its package. -/
def shortName (struct : Struct) : String :=
  String.ofList (lastPart struct.name.toList)

/-- The package of the struct, empty where it has none. -/
def package (struct : Struct) : String :=
  String.ofList (packagePart struct.name.toList)

/-- The first member of a name. -/
def member? (struct : Struct) (name : String) : Option Member :=
  struct.members.find? (·.name == name)

end Struct

/-- The structs of one run, in the order of their definitions. -/
structure Schema where
  structs : List Struct := []
  deriving DecidableEq, Repr

namespace Schema

/-- The first struct of a name. -/
def lookup? (schema : Schema) (name : String) : Option Struct :=
  schema.structs.find? (·.name == name)

/-- Whether some struct has the name. -/
def contains (schema : Schema) (name : String) : Bool :=
  schema.structs.any (·.name == name)

/-- The names of the structs, in order. -/
def names (schema : Schema) : List String :=
  schema.structs.map (·.name)

/-- The schema with further structs at its end. -/
def append (schema : Schema) (structs : List Struct) : Schema :=
  { schema with structs := schema.structs ++ structs }

/-- What is looked up has the name that was asked for. -/
theorem name_of_lookup? {schema : Schema} {name : String} {struct : Struct}
    (h : schema.lookup? name = some struct) : struct.name = name := by
  have := List.find?_some h
  simpa using this

/-- What is looked up is a struct of the schema. -/
theorem mem_of_lookup? {schema : Schema} {name : String} {struct : Struct}
    (h : schema.lookup? name = some struct) : struct ∈ schema.structs :=
  List.mem_of_find?_eq_some h

/-- A lookup succeeds exactly for the names of the schema. -/
theorem lookup?_isSome_iff (schema : Schema) (name : String) :
    (schema.lookup? name).isSome = schema.contains name := by
  rw [Bool.eq_iff_iff]
  simp [lookup?, contains]

end Schema

end Wireform
