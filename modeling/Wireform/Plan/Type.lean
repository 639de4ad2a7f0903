import Wireform.Plan.Codec
import Wireform.Plan.Size
import Wireform.Schema.Fingerprint

/-!
# Type plans

All that a backend renders for one struct, without reference to a language: the fingerprint and the
types that enter it, the size plan, and the plans of the encoder and the decoder.

- `TypePlan.build` plans one struct, and `Schema.plans` a whole schema
- `Registry` is a schema together with the fingerprints requested so far
-/

namespace Wireform

/-- The plan of one struct. -/
structure TypePlan where
  struct : Struct
  fingerprint : HashWord
  /-- The compound types of the members, in order and with repetitions. -/
  dependencies : List String
  size : SizePlan
  encode : CodecPlan
  decode : CodecPlan
  deriving DecidableEq, Repr

/-- Why a struct has no plan, or its plan no text: a table has no entry for a type, or a number
cannot be read or written. -/
inductive PlanFault where
  | unknownType (fault : UnknownType)
  | numeral (fault : Numeral.Fault)
  deriving DecidableEq, Repr

/-- The wording of a fault. -/
def PlanFault.message : PlanFault → String
  | .unknownType fault => fault.message
  | .numeral fault => fault.message

/-- The compound types of a struct's members, in order and with repetitions. -/
def Struct.dependencies (struct : Struct) : List String :=
  struct.members.filterMap fun member =>
    match member.type with
    | .primitive _ => none
    | .compound type => some type

/-- The plan of one struct, and the fingerprints known after it. -/
def TypePlan.build (schema : Schema) (struct : Struct) (cache : FingerprintCache) :
    Except PlanFault TypePlan × FingerprintCache :=
  match cache.fingerprint schema struct with
  | (.error fault, after) => (.error (.unknownType fault), after)
  | (.ok fingerprint, after) =>
      match SizePlan.ofStruct struct with
      | .error fault => (.error (.numeral fault), after)
      | .ok size =>
          (.ok { struct, fingerprint, size
                 dependencies := struct.dependencies
                 encode := .ofStruct .encode struct
                 decode := .ofStruct .decode struct }, after)

namespace Schema

/-- The plans of some structs of a schema, and the fingerprints known after them. -/
def plansOf (schema : Schema) :
    List Struct → FingerprintCache → Except PlanFault (List TypePlan) × FingerprintCache
  | [], cache => (.ok [], cache)
  | struct :: rest, cache =>
      match TypePlan.build schema struct cache with
      | (.error fault, after) => (.error fault, after)
      | (.ok plan, after) =>
          match schema.plansOf rest after with
          | (.error fault, final) => (.error fault, final)
          | (.ok plans, final) => (.ok (plan :: plans), final)

/-- The plans of a schema, and the fingerprints known after them. -/
def plans (schema : Schema) (cache : FingerprintCache) :
    Except PlanFault (List TypePlan) × FingerprintCache :=
  schema.plansOf schema.structs cache

end Schema

end Wireform
