import Wireform.Schema.Basic

/-!
# Codec plans

The order in which the values of a struct are written and read: its members in the order of their
definition, each under a nest of loops, one for each dimension from the outermost in. The encoder
and the decoder share these steps.

- `FieldStep.lengthMembers` names the members on which a step's loops depend
- `FieldStep.boundedLength?` names the length that a decoder can check before it loops
-/

namespace Wireform

/-- The transfer of one member. -/
structure FieldStep where
  member : Member
  /-- The dimensions, outermost first. -/
  loops : List Dimension
  /-- The bytes of one element, where they do not depend on its value. -/
  width : Option Nat
  deriving DecidableEq, Repr

namespace FieldStep

/-- The step of a member. -/
def ofMember (member : Member) : FieldStep :=
  ⟨member, member.dimensions, member.type.width?⟩

/-- The names of the dynamic extents among some dimensions, each once, outermost first. -/
def dynamicSizes (seen : List String) : List Dimension → List String
  | [] => seen
  | dimension :: rest =>
      if dimension.isConstant || seen.contains dimension.size then dynamicSizes seen rest
      else dynamicSizes (seen ++ [dimension.size]) rest

/-- The members that carry the step's dynamic extents, each once, outermost first. -/
def lengthMembers (step : FieldStep) : List String :=
  dynamicSizes [] step.loops

/-- The dynamic innermost extent of an array of primitives. Each element of such an array takes at
least one byte, so its length can be held against the bytes that are left. -/
def boundedLength? (step : FieldStep) : Option String :=
  if step.member.isPrimitive then
    match step.loops.getLast? with
    | none => none
    | some inner => if inner.isConstant then none else some inner.size
  else none

end FieldStep

/-- The way in which values go. -/
inductive Direction where
  | encode
  | decode
  deriving DecidableEq, Repr

/-- The steps of an encoder or a decoder. -/
structure CodecPlan where
  direction : Direction
  steps : List FieldStep
  deriving DecidableEq, Repr

/-- The plan of a struct's encoder or decoder. -/
def CodecPlan.ofStruct (direction : Direction) (struct : Struct) : CodecPlan :=
  ⟨direction, struct.members.map FieldStep.ofMember⟩

end Wireform
