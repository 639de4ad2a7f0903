import Wireform.Schema.Basic

/-!
# Size plans

How the encoded size of a struct is found. A member of a fixed width with constant dimensions only
adds a number that is known beforehand; any other member is summed element by element.

- `SizePlan.ofStruct` splits the members of a struct into such terms
- `SizePlan.constantBytes` is the part of the size that is known beforehand
-/

namespace Wireform

/-- What one member adds to the encoded size. -/
inductive SizeTerm where
  /-- A fixed width, as many times as the constant extents say. -/
  | constant (member : Member) (width : Nat) (extents : List Int)
  /-- The sizes of the elements, each of a fixed width or of one that its value decides. -/
  | perElement (member : Member) (loops : List Dimension) (width : Option Nat)
  deriving DecidableEq, Repr

namespace SizeTerm

/-- The member that a term is for. -/
def member : SizeTerm → Member
  | constant member _ _ => member
  | perElement member _ _ => member

/-- Whether the term is known beforehand. -/
def isConstant : SizeTerm → Bool
  | constant .. => true
  | perElement .. => false

/-- The bytes that are known beforehand. -/
def constantBytes : SizeTerm → Int
  | constant _ width extents => extents.foldl (· * ·) (width : Int)
  | perElement .. => 0

/-- The term of a member. -/
def ofMember (member : Member) : Except Numeral.Fault SizeTerm :=
  match member.type.width? with
  | some width =>
      if member.dimensions.all (·.isConstant) then do
        return .constant member width (← member.dimensions.mapM Dimension.extent)
      else return .perElement member member.dimensions (some width)
  | none => return .perElement member member.dimensions none

end SizeTerm

/-- The terms of a struct's encoded size, in the order of the members. -/
structure SizePlan where
  terms : List SizeTerm
  deriving DecidableEq, Repr

namespace SizePlan

/-- The size plan of a struct. -/
def ofStruct (struct : Struct) : Except Numeral.Fault SizePlan := do
  return ⟨← struct.members.mapM SizeTerm.ofMember⟩

/-- The bytes that are known beforehand. -/
def constantBytes (plan : SizePlan) : Int :=
  plan.terms.foldr (fun term rest => term.constantBytes + rest) 0

/-- The terms that are known beforehand. -/
def constantTerms (plan : SizePlan) : List SizeTerm :=
  plan.terms.filter (·.isConstant)

/-- The terms that are summed element by element. -/
def elementTerms (plan : SizePlan) : List SizeTerm :=
  plan.terms.filter (!·.isConstant)

/-- Whether the whole size is known beforehand. -/
def isConstant (plan : SizePlan) : Bool :=
  plan.elementTerms.isEmpty

end SizePlan

end Wireform
