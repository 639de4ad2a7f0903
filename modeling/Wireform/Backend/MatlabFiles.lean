import Wireform.Backend.Layout
import Wireform.Pairs
import Wireform.Plan.Type
import Wireform.Text.Quoted

/-!
# Generated MATLAB files

Nine functions for each struct, each in a file of its own. The functions work with a library that
has the codecs of the primitives and represents a 64-bit hash as a pair of 32-bit words. Positions
start at one, and a position below one reports a failure.

- `structFiles` are the files of one struct
- `matlabFiles` are the files of a schema
-/

namespace Wireform.Backend

open Text (hexText)

/-- The lines at the top of every file. -/
def fileHeader : String :=
  "% THIS IS AN AUTOMATICALLY GENERATED FILE.  DO NOT MODIFY\n"
    ++ "% BY HAND!!\n"
    ++ "%\n"
    ++ "% Generated by lcmgen\n"
    ++ "%\n"
    ++ "%#eml\n"
    ++ "%#codegen\n"

/-- The text of a file that holds one function. -/
def functionText (signature : String) (body : List Line) : String :=
  fileHeader
    ++ layOut (plain ("function " ++ signature) :: (body ++ [plain "%endfunction", Line.blank]))

/-! ### Expressions -/

/-- The extent of a dimension, as a numeral or as a field of `owner`. -/
def matlabExtent (owner : String) (dimension : Dimension) : Except Numeral.Fault String :=
  if dimension.isConstant then do Numeral.write (← dimension.extent)
  else return owner ++ "." ++ dimension.size

/-- An element of a member below `depth` loops. Strings are kept in cells. -/
def matlabElement (owner : String) (member : Member) (depth : Nat) : String :=
  let index := String.intercalate ", " ((List.range depth).map fun k => "dx" ++ toString k)
  if depth = 0 then owner ++ "." ++ member.name
  else if member.type = .primitive .string then
    owner ++ "." ++ member.name ++ "\x7b" ++ index ++ "\x7d"
  else owner ++ "." ++ member.name ++ "(" ++ index ++ ")"

/-- The first value of a scalar. -/
def matlabScalar : FieldType → String
  | .primitive .string => "''"
  | .primitive p => storageClass p ++ "(0)"
  | .compound name => matlabName name ++ "_new()"

/-- The first value of a member; a dynamic dimension starts with no elements. -/
def matlabDefault (member : Member) : String :=
  if member.dimensions.isEmpty then matlabScalar member.type
  else
    let extents := member.dimensions.map fun d => if d.isConstant then d.size else "0"
    let shape := String.intercalate ", " (if extents.length = 1 then extents ++ ["1"] else extents)
    if member.type = .primitive .string then
      "\x7brepmat( \x7b''\x7d, [" ++ shape ++ "] )\x7d"
    else "repmat( " ++ matlabScalar member.type ++ ", [" ++ shape ++ "] )"

/-! ### Lines -/

/-- A body below a condition. -/
def conditional (condition : String) (body : List Line) : List Line :=
  closedBlock ("if " ++ condition) body "end"

/-- A body below one loop for each dimension, from the `level`th on. -/
def countedLoops (owner : String) (body : List Line) (level : Nat) :
    List Dimension → Except Numeral.Fault (List Line)
  | [] => return body
  | dimension :: rest => do
      let extent ← matlabExtent owner dimension
      let inner ← countedLoops owner body (level + 1) rest
      return closedBlock ("for dx" ++ toString level ++ " = 1:" ++ extent) inner "end"

/-- The lines that refuse negative lengths. -/
def matlabLengthChecks (step : FieldStep) : List Line :=
  step.lengthMembers.flatMap fun length =>
    conditional ("S(ix)." ++ length ++ " < 0") [plain "pos = -1;", plain "return;"]

/-- The lines that write one member. -/
def matlabEncodeStep (step : FieldStep) : Except Numeral.Fault (List Line) := do
  let value := matlabElement "S(ix)" step.member step.loops.length
  let body := plain ("[buf, pos] = " ++ matlabName step.member.type.name
      ++ "_encode_nohash(buf, pos, maxlen, " ++ value ++ ", 1);")
    :: conditional "pos < 1" [plain "return;"]
  return matlabLengthChecks step ++ (← countedLoops "S(ix)" body 0 step.loops)

/-- The lines that read one member. -/
def matlabDecodeStep (step : FieldStep) : Except Numeral.Fault (List Line) := do
  let target := matlabElement "S(ix)" step.member step.loops.length
  let value := if step.member.type = .primitive .string then "t" else "t(1)"
  let body := plain ("[pos, t] = " ++ matlabName step.member.type.name
      ++ "_decode_nohash(buf, pos, maxlen, " ++ matlabScalar step.member.type ++ ", 1);")
    :: conditional "pos < 1" [plain "return;"]
    ++ [plain (target ++ " = " ++ value ++ ";")]
  return matlabLengthChecks step ++ (← countedLoops "S(ix)" body 0 step.loops)

/-- The lines that add the size of one member. -/
def matlabSizeStep : SizeTerm → Except Numeral.Fault (List Line)
  | .constant .. => return []
  | .perElement member loops width =>
      let added := match width with
        | some bytes => toString bytes
        | none => matlabName member.type.name ++ "_encodedSize_nohash("
            ++ matlabElement "S" member loops.length ++ ")"
      countedLoops "S" [plain ("s = s + " ++ added ++ ";")] 0 loops

/-! ### Files -/

/-- The function that makes a value. -/
def newFile (stem : String) (struct : Struct) : String :=
  let count := struct.members.length
  let fields := struct.members.mapIdx fun i member =>
    plain ("'" ++ member.name ++ "', " ++ matlabDefault member
      ++ (if i + 1 = count then " );" else ",..."))
  functionText ("S = " ++ stem ++ "_new()") (deeper (block "S = struct(..." fields))

/-- The function that writes a value with its fingerprint. -/
def encodeFile (stem : String) : String :=
  functionText ("[buf, pos] = " ++ stem ++ "_encode(buf, pos, maxlen, S)") <| deeper <|
    [plain ("hash = " ++ stem ++ "_hash();"),
     plain "[buf, pos] = int64_encode_nohash(buf, pos, maxlen, hash, 1);"]
    ++ conditional "pos < 1" [plain "return;"]
    ++ [plain ("[buf, pos] = " ++ stem ++ "_encode_nohash(buf, pos, maxlen, S, 1);")]

/-- The function that gives the size of a value with its fingerprint. -/
def sizeFile (stem : String) : String :=
  functionText ("bytes = " ++ stem ++ "_encodedSize(S)") <| deeper
    [plain ("bytes = uint32(8) + " ++ stem ++ "_encodedSize_nohash(S);")]

/-- The function that reads a value after its fingerprint. -/
def decodeFile (stem : String) : String :=
  functionText ("[pos, S] = " ++ stem ++ "_decode(buf, pos, maxlen, S)") <| deeper <|
    [plain "hash = uint32([0, 0]);",
     plain ("hash(1:2) = " ++ stem ++ "_hash();"),
     plain "readHash = uint32([0, 0]);",
     plain "[pos, readHash] = int64_decode_nohash(buf, pos, maxlen, readHash, 1);"]
    ++ block "if pos < 1 || readHash(1) ~= hash(1) || readHash(2) ~= hash(2)" [plain "pos = -1;"]
    ++ closedBlock "else"
        [plain ("[pos, S] = " ++ stem ++ "_decode_nohash(buf, pos, maxlen, S, 1);")] "end"

/-- The function that computes the fingerprint once. -/
def hashFile (stem : String) : String :=
  functionText ("hash = " ++ stem ++ "_hash()") <| deeper <|
    [plain ("persistent " ++ stem ++ "_hash_value;")]
    ++ conditional ("isempty(" ++ stem ++ "_hash_value)")
        [plain (stem ++ "_hash_value = " ++ stem ++ "_computeHash([]);")]
    ++ [plain ("hash = " ++ stem ++ "_hash_value;")]

/-- The lines that add the fingerprint of one dependency, unless it is on the path already. -/
def visitLines (dependency : String) : List Line :=
  [plain "visit = true;", plain "ix = 1;"]
    ++ closedBlock "while ix <= parents_len"
        ([plain "p_len = double(parents(ix));"]
          ++ conditional (toString dependency.length
                ++ " == p_len && strcmp(parents(ix + 1:ix + p_len), '" ++ dependency ++ "')")
              [plain "visit = false;", plain "break"]
          ++ [plain "ix = ix + p_len + 1;"]) "end"
    ++ conditional "visit"
        [plain ("hash = add_overflow(hash, " ++ matlabName dependency
          ++ "_computeHash(parents));")]

/-- The function that computes the fingerprint below a path. -/
def computeHashFile (stem : String) (plan : TypePlan) : String :=
  let name := plan.struct.name
  functionText ("hash = " ++ stem ++ "_computeHash(parents)") <| deeper <|
    [plain ("parents = [parents, " ++ toString name.length ++ ", '" ++ name ++ "'];"),
     plain "parents_len = length(parents);",
     plain ("hash = hex2int64('" ++ hexText 16 plan.struct.baseHash ++ "');")]
    ++ plan.dependencies.flatMap visitLines
    ++ [plain "%wrap around shift",
        plain "overflowbit = bitshift(hash(2), -31);",
        plain "bigendbit = bitshift(hash(1), -31);",
        plain "hash = bitshift(hash, 1);",
        plain "hash(1) = bitor(hash(1), overflowbit);",
        plain "hash(2) = bitor(hash(2), bigendbit);"]

/-- The function that writes the members of some values. -/
def encodeMembersFile (stem : String) (plan : TypePlan) : Except Numeral.Fault String := do
  let steps ← plan.encode.steps.mapM matlabEncodeStep
  return functionText ("[buf, pos] = " ++ stem ++ "_encode_nohash(buf, pos, maxlen, S, elems)")
    (deeper (closedBlock "for ix = 1:elems" steps.flatten "end"))

/-- The function that reads the members of some values. -/
def decodeMembersFile (stem : String) (plan : TypePlan) : Except Numeral.Fault String := do
  let steps ← plan.decode.steps.mapM matlabDecodeStep
  return functionText ("[pos, S] = " ++ stem ++ "_decode_nohash(buf, pos, maxlen, S, elems)")
    (deeper (closedBlock "for ix = 1:elems" steps.flatten "end"))

/-- The function that gives the size of the members. -/
def sizeMembersFile (stem : String) (plan : TypePlan) : Except Numeral.Fault String := do
  let bytes ← Numeral.write plan.size.constantBytes
  let steps ← plan.size.elementTerms.mapM matlabSizeStep
  return functionText ("s = " ++ stem ++ "_encodedSize_nohash(S)")
    (deeper (plain ("s = uint32(" ++ bytes ++ ");") :: steps.flatten))

/-- The files of one struct, by name. -/
def structFiles (plan : TypePlan) : Except Numeral.Fault (List (String × String)) := do
  let stem := matlabName plan.struct.name
  let encodeMembers ← encodeMembersFile stem plan
  let decodeMembers ← decodeMembersFile stem plan
  let sizeMembers ← sizeMembersFile stem plan
  return [
    (stem ++ "_new.m", newFile stem plan.struct),
    (stem ++ "_encode.m", encodeFile stem),
    (stem ++ "_decode.m", decodeFile stem),
    (stem ++ "_encodedSize.m", sizeFile stem),
    (stem ++ "_hash.m", hashFile stem),
    (stem ++ "_encode_nohash.m", encodeMembers),
    (stem ++ "_decode_nohash.m", decodeMembers),
    (stem ++ "_encodedSize_nohash.m", sizeMembers),
    (stem ++ "_computeHash.m", computeHashFile stem plan)]

/-- The files of a schema, and the fingerprints known after them. A name that occurs again keeps its
place and takes the new text. -/
def matlabFiles (schema : Schema) (cache : FingerprintCache) :
    Except PlanFault (List (String × String)) × FingerprintCache :=
  match schema.plans cache with
  | (.error fault, after) => (.error fault, after)
  | (.ok plans, after) =>
      match plans.mapM structFiles with
      | .error fault => (.error (.numeral fault), after)
      | .ok files => (.ok (Pairs.setAll [] files.flatten), after)

end Wireform.Backend
