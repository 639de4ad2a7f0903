import Wireform.HashWord
import Wireform.Schema.Basic

/-!
# Base hashes

The base hash of a struct is a hash of its members' signatures: the name, the type name where the
type is a primitive, the number of dimensions, and the mode and size of each. The name of the struct
and the names of compound types stay out of it; the contents of compound types enter through the
fingerprint.

- `Struct.signature` lists the values that are hashed
- `Struct.signatureHash` is the base hash they give, and `Member.foldInto` the part of a member
-/

namespace Wireform

open HashWord (textValues)

/-- The values that a dimension contributes to the base hash. -/
def Dimension.signature (dimension : Dimension) : List Int :=
  dimension.mode :: textValues dimension.size

/-- The values that a type contributes to the base hash. -/
def FieldType.signature : FieldType → List Int
  | .primitive p => textValues p.name
  | .compound _ => []

/-- The values that a member contributes to the base hash. -/
def Member.signature (member : Member) : List Int :=
  textValues member.name ++ member.type.signature
    ++ (member.dimensions.length : Int) :: member.dimensions.flatMap Dimension.signature

/-! ### Hashes -/

/-- Takes a dimension into a hash: its mode, then its size. -/
def Dimension.foldInto (word : HashWord) (dimension : Dimension) : HashWord :=
  (word.fold dimension.mode).foldText dimension.size

/-- Takes a member into a hash: its name, the name of its type where that is a primitive, and the
number of its dimensions before each of them. -/
def Member.foldInto (word : HashWord) (member : Member) : HashWord :=
  let named := word.foldText member.name
  let typed := match member.type with
    | .primitive p => named.foldText p.name
    | .compound _ => named
  member.dimensions.foldl Dimension.foldInto (typed.fold member.dimensions.length)

private theorem Dimension.foldAll_signature (word : HashWord) (dimension : Dimension) :
    word.foldAll dimension.signature = dimension.foldInto word := by
  rw [signature, HashWord.foldAll_cons, foldInto, HashWord.foldText]

private theorem Member.foldAll_signature (word : HashWord) (member : Member) :
    word.foldAll member.signature = member.foldInto word := by
  rw [Member.signature, HashWord.foldAll_append, HashWord.foldAll_append, HashWord.foldAll_cons,
    HashWord.foldAll_flatMap Dimension.foldAll_signature, Member.foldInto]
  cases member.type <;> rfl

namespace Struct

/-- The values that are hashed for a struct, in order. -/
def signature (struct : Struct) : List Int :=
  struct.members.flatMap Member.signature

/-- The word in which the hash of a signature starts. -/
def hashSeed : HashWord := 0x12345678#64

/-- The hash of a struct's signature. -/
def signatureHash (struct : Struct) : HashWord :=
  HashWord.foldAll hashSeed struct.signature

/-- The struct with its base hash taken from its signature. -/
def withSignatureHash (struct : Struct) : Struct :=
  { struct with baseHash := struct.signatureHash.toNat }

/-- The hash of a signature takes in one member after another. -/
theorem signatureHash_eq_foldl (struct : Struct) :
    struct.signatureHash = struct.members.foldl Member.foldInto hashSeed :=
  HashWord.foldAll_flatMap Member.foldAll_signature hashSeed struct.members

end Struct

end Wireform
