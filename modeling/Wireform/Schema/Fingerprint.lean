import Wireform.Schema.BaseHash

/-!
# Fingerprints

The fingerprint of a struct is its base hash plus the fingerprints of the structs that its members
name, turned left by one bit at each level of nesting. A type that is already on the path from the
top is left out, so a cyclic type graph is walked along its simple paths only and the walk ends.

- `Schema.structuralHash` is the hash of a struct below a given path
- `FingerprintCache.fingerprint` remembers the hash of each name at the first request
-/

namespace Wireform

/-- A type name on the path of a walk, beside its length. -/
abbrev PathEntry := Int × String

/-- The entry of a type name: its length in characters, and the name. -/
def pathEntry (name : String) : PathEntry := (name.length, name)

/-- A type name that names no struct of the schema. -/
structure UnknownType where
  name : String
  deriving DecidableEq, Repr

/-- The wording of a fault: the name alone. -/
def UnknownType.message (fault : UnknownType) : String := Text.quote fault.name

namespace Schema

/-- The structs whose names are not on the path. -/
def offPath (schema : Schema) (path : List PathEntry) : List Struct :=
  schema.structs.filter fun struct => !path.contains (pathEntry struct.name)

/-- Going down into a struct that is off the path leaves fewer structs off the path. -/
theorem length_offPath_lt {schema : Schema} {path : List PathEntry} {name : String}
    {child : Struct} (hlookup : schema.lookup? name = some child)
    (hpath : path.contains (pathEntry name) = false) :
    (schema.offPath (path ++ [pathEntry child.name])).length < (schema.offPath path).length := by
  have hname : child.name = name := name_of_lookup? hlookup
  have hmem : child ∈ schema.offPath path := by
    simp only [offPath, List.mem_filter]
    exact ⟨mem_of_lookup? hlookup, by rw [hname, hpath]; rfl⟩
  have hsub : schema.offPath (path ++ [pathEntry child.name])
      = (schema.offPath path).filter fun struct => !(struct.name == child.name) := by
    simp only [offPath, List.filter_filter]
    apply List.filter_congr
    intro struct _
    by_cases hs : struct.name = child.name
    · simp [hs]
    · have : pathEntry struct.name ≠ pathEntry child.name := fun h => hs (congrArg Prod.snd h)
      simp [hs, this]
  rw [hsub]
  refine List.length_filter_lt_length_iff_exists.2 ⟨child, hmem, by simp⟩

/-- The hash of a struct whose walk has come along `path`. -/
def structuralHash (schema : Schema) (struct : Struct) (path : List PathEntry) :
    Except UnknownType HashWord := do
  let below := path ++ [pathEntry struct.name]
  let addMember := fun (sum : HashWord) (member : Member) =>
    match member.type with
    | .primitive _ => pure sum
    | .compound type =>
        if _hpath : below.contains (pathEntry type) = true then pure sum
        else match _hchild : schema.lookup? type with
          | none => throw ⟨type⟩
          | some child => do return sum + (← structuralHash schema child below)
  let sum ← struct.members.foldlM addMember (HashWord.ofInt struct.baseHash)
  return sum.rotate
termination_by (schema.offPath (path ++ [pathEntry struct.name])).length
decreasing_by
  exact length_offPath_lt _hchild (Bool.eq_false_iff.2 _hpath)

end Schema

/-- The fingerprints computed so far, each under the name of its struct, the oldest first. -/
abbrev FingerprintCache := List (String × HashWord)

namespace FingerprintCache

/-- The fingerprint of a struct, and the cache after the request. A name met before keeps the
fingerprint it was given then. -/
def fingerprint (cache : FingerprintCache) (schema : Schema) (struct : Struct) :
    Except UnknownType HashWord × FingerprintCache :=
  match cache.lookup struct.name with
  | some word => (.ok word, cache)
  | none =>
      match schema.structuralHash struct [] with
      | .error fault => (.error fault, cache)
      | .ok word => (.ok word, cache ++ [(struct.name, word)])

end FingerprintCache

end Wireform
