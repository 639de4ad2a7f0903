import Wireform.Schema.Basic

/-!
# Validation

A schema is sound when its struct names differ, the member names of each struct differ, every
compound type is defined somewhere in the schema, and every dynamic dimension names an earlier
member of the same struct that is a scalar of an integer type.

- `Schema.validate` reports the first rule that a schema breaks, reading names first and then the
  members of each struct in order
- `SchemaFault.message` words the report
-/

namespace Wireform

/-- A rule that a schema breaks. -/
inductive SchemaFault where
  | structTwice (struct : String)
  | memberTwice (struct member : String)
  | unknownType (struct member type : String)
  | lengthNotEarlier (struct member size : String)
  | lengthNotScalarInteger (struct member size : String)
  deriving DecidableEq, Repr

/-- The wording of a fault. -/
def SchemaFault.message : SchemaFault → String
  | .structTwice struct => "struct " ++ Text.quote struct ++ " defined twice"
  | .memberTwice struct member => struct ++ ": duplicate member " ++ Text.quote member
  | .unknownType struct member type =>
      struct ++ "." ++ member ++ ": unknown type " ++ Text.quote type
  | .lengthNotEarlier struct member size =>
      struct ++ "." ++ member ++ ": dimension " ++ Text.quote size
        ++ " must name an earlier member"
  | .lengthNotScalarInteger struct member size =>
      struct ++ "." ++ member ++ ": dimension " ++ Text.quote size
        ++ " must be a scalar integer"

namespace Schema

/-- Checks that no struct name occurs twice, `seen` being the names met before. -/
def checkNames (seen : List String) : List Struct → Except SchemaFault Unit
  | [] => .ok ()
  | struct :: rest =>
      if seen.contains struct.name then .error (.structTwice struct.name)
      else checkNames (struct.name :: seen) rest

/-- Checks one dimension of a member against the members declared before it. -/
def checkDimension (struct member : String) (declared : List Member) (dimension : Dimension) :
    Except SchemaFault Unit :=
  if dimension.isConstant then .ok ()
  else match declared.find? (·.name == dimension.size) with
    | none => .error (.lengthNotEarlier struct member dimension.size)
    | some length =>
        if length.isArray || !length.type.isInteger then
          .error (.lengthNotScalarInteger struct member dimension.size)
        else .ok ()

/-- Checks one member against the names of the schema and the members declared before it. -/
def checkMember (known : List String) (struct : String) (declared : List Member)
    (member : Member) : Except SchemaFault Unit :=
  if declared.any (·.name == member.name) then .error (.memberTwice struct member.name)
  else match member.type with
    | .primitive _ => member.dimensions.forM (checkDimension struct member.name declared)
    | .compound type =>
        if known.contains type then
          member.dimensions.forM (checkDimension struct member.name declared)
        else .error (.unknownType struct member.name type)

/-- Checks the members of a struct, `declared` being those already checked. -/
def checkMembers (known : List String) (struct : String) (declared : List Member) :
    List Member → Except SchemaFault Unit
  | [] => .ok ()
  | member :: rest =>
      match checkMember known struct declared member with
      | .error fault => .error fault
      | .ok () => checkMembers known struct (declared ++ [member]) rest

/-- Reports the first rule that the schema breaks. -/
def validate (schema : Schema) : Except SchemaFault Unit :=
  match checkNames [] schema.structs with
  | .error fault => .error fault
  | .ok () => schema.structs.forM fun struct =>
      checkMembers schema.names struct.name [] struct.members

end Schema

end Wireform
