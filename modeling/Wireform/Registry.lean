import Wireform.Plan.Type
import Wireform.Source.Parser

/-!
# Registries

A registry is a schema that grows, together with the fingerprints requested so far. A fingerprint
is computed at the first request for its name and kept from then on, whatever happens to the base
hashes later.

- `Registry.addText` and `Registry.addStruct` add structs
- `Registry.fingerprint` answers from the cache, `Registry.structuralHash` never does
-/

namespace Wireform

/-- A schema and the fingerprints requested so far. -/
structure Registry where
  schema : Schema := {}
  fingerprints : FingerprintCache := []
  deriving DecidableEq, Repr

namespace Registry

/-- The first struct of a name. -/
def lookup (registry : Registry) (name : String) : Except UnknownType Struct :=
  match registry.schema.lookup? name with
  | some struct => .ok struct
  | none => .error ⟨name⟩

/-- The registry with one more struct. -/
def addStruct (registry : Registry) (struct : Struct) : Registry :=
  { registry with schema := registry.schema.append [struct] }

/-- The names of the structs of a text, and the registry with these structs. -/
def addText (registry : Registry) (text : String) :
    Except SourceFault (List String × Registry) :=
  match Source.structs text with
  | .error fault => .error fault
  | .ok structs =>
      .ok (structs.map (·.name), { registry with schema := registry.schema.append structs })

/-- Changes the first struct of a name. -/
def modifyFirst (name : String) (change : Struct → Struct) : List Struct → List Struct
  | [] => []
  | struct :: rest =>
      if struct.name = name then change struct :: rest
      else struct :: modifyFirst name change rest

/-- The registry with another base hash in the first struct of a name. -/
def setBaseHash (registry : Registry) (name : String) (value : Int) : Registry :=
  { registry with
    schema := ⟨modifyFirst name ({ · with baseHash := value }) registry.schema.structs⟩ }

/-- The fingerprint of the first struct of a name, and the registry that remembers it. -/
def fingerprint (registry : Registry) (name : String) : Except UnknownType HashWord × Registry :=
  match registry.lookup name with
  | .error fault => (.error fault, registry)
  | .ok struct =>
      let (result, after) := registry.fingerprints.fingerprint registry.schema struct
      (result, { registry with fingerprints := after })

/-- The hash of the first struct of a name below a path. -/
def structuralHash (registry : Registry) (name : String) (path : List PathEntry) :
    Except UnknownType HashWord :=
  match registry.lookup name with
  | .error fault => .error fault
  | .ok struct => registry.schema.structuralHash struct path

/-- The plans of the schema, and the registry that remembers their fingerprints. -/
def plans (registry : Registry) : Except PlanFault (List TypePlan) × Registry :=
  let (result, after) := registry.schema.plans registry.fingerprints
  (result, { registry with fingerprints := after })

end Registry

end Wireform
