import Wireform.Backend.PythonClass
import Wireform.Backend.PythonPrelude

/-!
# Generated Python modules

A generated module holds a header, the prelude, one class for each struct in the order of the
schema, and the list of the class names.

- `pythonModule` is the text of the module of a schema
-/

namespace Wireform.Backend

/-- Why a schema has no Python module. -/
inductive ModuleFault where
  | name (fault : NameFault)
  | plan (fault : PlanFault)
  deriving DecidableEq, Repr

/-- The wording of a fault. -/
def ModuleFault.message : ModuleFault → String
  | .name fault => fault.message
  | .plan fault => fault.message

/-- The header of a module, which tells from what it was generated where that is known. -/
def moduleHeader (source : Option String) : List Line :=
  let origin := match source with
    | none => ""
    | some text => if text.isEmpty then "" else " from " ++ text
  [plain "\"\"\"",
   plain "LCM type definitions.",
   Line.blank,
   plain "THIS IS AN AUTOMATICALLY GENERATED FILE.  DO NOT MODIFY BY HAND!!",
   Line.blank,
   plain ("Generated by lcmgen" ++ origin ++ "."),
   plain "\"\"\"",
   Line.blank]

/-- The text of a header up to the names of what the module was generated from. -/
def headerStart : String :=
  layOut ((moduleHeader none).take 5) ++ "Generated by lcmgen from "

/-- The lines of the module of some plans. -/
def moduleLines (source : Option String) (plans : List TypePlan) :
    Except PlanFault (List Line) := do
  let classes ← plans.mapM classLines
  let names := plans.map fun plan => "\"" ++ flatName plan.struct.name ++ "\""
  return moduleHeader source ++ modulePrelude ++ classes.flatMap (gap ++ ·) ++ gap
    ++ [plain ("__all__ = [" ++ String.intercalate ", " names ++ "]")]

/-- The text of the module of a schema, and the fingerprints known after it. The names are checked
before anything else. -/
def pythonModule (schema : Schema) (source : Option String) (cache : FingerprintCache) :
    Except ModuleFault String × FingerprintCache :=
  match checkNames [] schema.structs with
  | .error fault => (.error (.name fault), cache)
  | .ok () =>
      match schema.plans cache with
      | (.error fault, after) => (.error (.plan fault), after)
      | (.ok plans, after) =>
          match moduleLines source plans with
          | .error fault => (.error (.plan fault), after)
          | .ok lines => (.ok (layOut lines), after)

end Wireform.Backend
