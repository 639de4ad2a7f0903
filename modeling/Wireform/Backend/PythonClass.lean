import Wireform.Backend.PythonNames
import Wireform.Backend.Layout
import Wireform.Plan.Type
import Wireform.Text.Quoted

/-!
# Generated Python classes

The class of one struct: its slots and default values, its fingerprint, its size, and its encoder
and decoder. A class has two layers. The outer methods handle the fingerprint and work on whole
buffers, the inner ones, whose names end in `_nohash`, handle the members alone, so that a class can
call the inner methods of the classes of its members. Inner methods report a failure by the position
-1.

- `defaultValue` is the expression for a member's first value
- `encodeStep` and `decodeStep` are the lines of one member
- `classLines` are the lines of the class
-/

namespace Wireform.Backend

open Text (quote hexText)

/-! ### Expressions -/

/-- The extent of a dimension, as a numeral or as an attribute of `owner`. -/
def extentText (owner : String) (dimension : Dimension) : Except Numeral.Fault String :=
  if dimension.isConstant then do Numeral.write (← dimension.extent)
  else return owner ++ "." ++ dimension.size

/-- An element of a member below `depth` loops. -/
def elementText (owner member : String) (depth : Nat) : String :=
  owner ++ "." ++ member
    ++ String.join ((List.range depth).map fun k => "[d" ++ toString k ++ "]")

/-- The first value of a scalar. -/
def defaultScalar : FieldType → String
  | .primitive .float | .primitive .double => "0.0"
  | .primitive .boolean => "False"
  | .primitive .string => "\"\""
  | .primitive _ => "0"
  | .compound type => flatName type ++ "()"

/-- The first value of a member; an array starts empty from its first dynamic dimension on. -/
def defaultValue (type : FieldType) : List Dimension → Except Numeral.Fault String
  | [] => return defaultScalar type
  | dimension :: rest =>
      if dimension.isConstant then do
        let inner ← defaultValue type rest
        let extent ← Numeral.write (← dimension.extent)
        return "[" ++ inner ++ " for _ in range(" ++ extent ++ ")]"
      else return "[]"

/-- The packer of a primitive, which has to be among those of the module. -/
def packer (p : Primitive) : Except PlanFault String :=
  match packer? p with
  | none => .error (.unknownType ⟨p.name⟩)
  | some name => .ok name

/-- The call that writes one element. -/
def encodeCall (type : FieldType) (value : String) : Except PlanFault String :=
  match type with
  | .primitive .string => return "_encode_string(buf, pos, maxlen, " ++ value ++ ")"
  | .primitive p => do
      return "_encode_value(buf, pos, maxlen, " ++ (← packer p) ++ ", " ++ value ++ ")"
  | .compound name =>
      return flatName name ++ "._encode_nohash(buf, pos, maxlen, [" ++ value ++ "], 1)"

/-- The call that reads one element. -/
def decodeCall : FieldType → Except PlanFault String
  | .primitive .string => return "_decode_string(buf, pos, maxlen)"
  | .primitive p => do return "_decode_value(buf, pos, maxlen, " ++ (← packer p) ++ ")"
  | .compound name => return flatName name ++ "._decode_nohash(buf, pos, maxlen, 1)"

/-- The size of one element. -/
def elementSize (type : FieldType) (width : Option Nat) (value : String) : String :=
  match width, type with
  | some bytes, _ => toString bytes
  | none, .primitive _ => "_string_size(" ++ value ++ ")"
  | none, .compound _ => value ++ "._encoded_size_nohash()"

/-! ### Loops -/

/-- A body below one loop for each dimension, from the `level`th on. Each loop comes after a check
that there are enough elements. -/
def checkedLoops (owner member : String) (fail : Line) (body : List Line) (level : Nat) :
    List Dimension → Except Numeral.Fault (List Line)
  | [] => return body
  | dimension :: rest => do
      let extent ← extentText owner dimension
      let inner ← checkedLoops owner member fail body (level + 1) rest
      return block ("if len(" ++ elementText owner member level ++ ") < " ++ extent ++ ":") [fail]
        ++ block ("for d" ++ toString level ++ " in range(" ++ extent ++ "):") inner

/-- A body that fills one list for each dimension, from the `level`th on. A list is put into the
list around it once it is full. -/
def fillingLoops (owner : String) (body : List Line) (value : String) (level : Nat) :
    List Dimension → Except Numeral.Fault (List Line)
  | [] => return body
  | [dimension] => do
      let extent ← extentText owner dimension
      return block ("for d" ++ toString level ++ " in range(" ++ extent ++ "):")
        (body ++ [plain ("_t" ++ toString level ++ ".append(" ++ value ++ ")")])
  | dimension :: rest => do
      let extent ← extentText owner dimension
      let inner ← fillingLoops owner body value (level + 1) rest
      let next := "_t" ++ toString (level + 1)
      return block ("for d" ++ toString level ++ " in range(" ++ extent ++ "):")
        (plain (next ++ " = []") :: inner
          ++ [plain ("_t" ++ toString level ++ ".append(" ++ next ++ ")")])

/-! ### Methods -/

/-- The lines that refuse negative lengths. -/
def lengthChecks (step : FieldStep) (fail : String) : List Line :=
  step.lengthMembers.flatMap fun length => block ("if msg." ++ length ++ " < 0:") [plain fail]

/-- The lines that write one member. -/
def encodeStep (step : FieldStep) : Except PlanFault (List Line) := do
  let call ← encodeCall step.member.type (elementText "msg" step.member.name step.loops.length)
  let body := plain ("pos = " ++ call) :: block "if pos < 0:" [plain "return -1"]
  let loops ← checkedLoops "msg" step.member.name (plain "return -1") body 0 step.loops
    |>.mapError .numeral
  return lengthChecks step "return -1" ++ loops

/-- The lines that check a length against the bytes that are left. -/
def boundCheck (step : FieldStep) : List Line :=
  match step.boundedLength? with
  | none => []
  | some length =>
      if length.isEmpty then []
      else block ("if msg." ++ length ++ " > maxlen - pos:") [plain "return -1, None"]

/-- The lines that read one member. -/
def decodeStep (step : FieldStep) : Except PlanFault (List Line) := do
  let value := if step.member.isPrimitive then "_v" else "_v[0]"
  let call ← decodeCall step.member.type
  let body := plain ("pos, _v = " ++ call) :: block "if pos < 0:" [plain "return -1, None"]
  let target := "msg." ++ step.member.name ++ " = "
  let transfer ←
    if step.loops.isEmpty then pure (body ++ [plain (target ++ value)])
    else do
      let loops ← (fillingLoops "msg" body value 0 step.loops).mapError .numeral
      pure (plain "_t0 = []" :: loops ++ [plain (target ++ "_t0")])
  return lengthChecks step "return -1, None" ++ boundCheck step ++ transfer

/-- The entry of a type name on the path of a fingerprint, as a pair. -/
def pathPair (name : String) : String :=
  "(" ++ toString name.length ++ ", " ++ quote name ++ ")"

/-- The methods for the fingerprint. -/
def hashMethods (plan : TypePlan) : List Line :=
  let visit := fun dependency =>
    block ("if " ++ pathPair dependency ++ " not in parents:")
      [plain ("tmphash = (tmphash + " ++ flatName dependency
        ++ "._compute_hash(parents)) & _MASK64")]
  [plain "@staticmethod"]
    ++ block "def _compute_hash(parents):"
        ([plain ("parents = parents + (" ++ pathPair plan.struct.name ++ ",)"),
          plain ("tmphash = 0x" ++ hexText 16 plan.struct.baseHash)]
          ++ plan.dependencies.flatMap visit
          ++ [plain "return ((tmphash << 1) & _MASK64) | (tmphash >> 63)"])
    ++ [Line.blank, plain "@classmethod"]
    ++ block "def _get_hash(cls):"
        (block "if cls._hash is None:" [plain "cls._hash = cls._compute_hash(())"]
          ++ [plain "return cls._hash"])
    ++ [Line.blank]

/-- The line that starts the sum of a size. The members that are known beforehand are listed. -/
def sizeStart (plan : SizePlan) : Except Numeral.Fault Line := do
  let folded := String.intercalate ", " (plan.constantTerms.map (·.member.name))
  if folded.isEmpty then return plain "size = 0"
  else return plain ("size = " ++ (← Numeral.write plan.constantBytes) ++ "  # " ++ folded)

/-- The lines that add the size of one member. -/
def sizeStep (struct : String) : SizeTerm → Except Numeral.Fault (List Line)
  | .constant .. => return []
  | .perElement member loops width =>
      let fail := plain ("raise ValueError(\"" ++ struct ++ "." ++ member.name
        ++ ": fewer elements than its dimensions\")")
      let value := elementText "self" member.name loops.length
      let body := [plain ("size += " ++ elementSize member.type width value)]
      checkedLoops "self" member.name fail body 0 loops

/-- The methods for the size. -/
def sizeMethods (plan : TypePlan) : Except Numeral.Fault (List Line) := do
  let start ← sizeStart plan.size
  let steps ← plan.size.elementTerms.mapM (sizeStep plan.struct.name)
  return block "def encoded_size(self):" [plain "return 8 + self._encoded_size_nohash()"]
    ++ [Line.blank]
    ++ block "def _encoded_size_nohash(self):" (start :: steps.flatten ++ [plain "return size"])
    ++ [Line.blank]

/-- The methods of the encoder. -/
def encodeMethods (plan : TypePlan) : Except PlanFault (List Line) := do
  let steps ← plan.encode.steps.mapM encodeStep
  return block "def encode(self):"
      ([plain "buf = bytearray(self.encoded_size())",
        plain "pos = self.encode_into(buf, 0, len(buf))"]
        ++ block "if pos < 0:"
            [plain ("raise ValueError(\"" ++ plan.struct.name ++ ": encode failed\")")]
        ++ [plain "return bytes(buf[:pos])"])
    ++ [Line.blank]
    ++ block "def encode_into(self, buf, pos, maxlen):"
      ([plain "maxlen = min(maxlen, len(buf))"]
        ++ block "if pos < 0:" [plain "return -1"]
        ++ [plain "pos = _encode_value(buf, pos, maxlen, _FINGERPRINT, self._get_hash())"]
        ++ block "if pos < 0:" [plain "return -1"]
        ++ [plain ("return " ++ flatName plan.struct.name
              ++ "._encode_nohash(buf, pos, maxlen, [self], 1)")])
    ++ [Line.blank, plain "@staticmethod"]
    ++ block "def _encode_nohash(buf, pos, maxlen, msgs, elems):"
      (block "for ix in range(elems):" (plain "msg = msgs[ix]" :: steps.flatten)
        ++ [plain "return pos"])
    ++ [Line.blank]

/-- The methods of the decoder. -/
def decodeMethods (plan : TypePlan) : Except PlanFault (List Line) := do
  let steps ← plan.decode.steps.mapM decodeStep
  return [plain "@classmethod"]
    ++ block "def decode(cls, data):"
      ([plain "pos, msg = cls.decode_from(data, 0, len(data))"]
        ++ block "if pos < 0:"
            [plain ("raise ValueError(\"" ++ plan.struct.name ++ ": decode failed\")")]
        ++ [plain "return msg"])
    ++ [Line.blank, plain "@classmethod"]
    ++ block "def decode_from(cls, buf, pos, maxlen):"
      ([plain "maxlen = min(maxlen, len(buf))"]
        ++ block "if pos < 0:" [plain "return -1, None"]
        ++ [plain "pos, fingerprint = _decode_value(buf, pos, maxlen, _FINGERPRINT)"]
        ++ block "if pos < 0 or fingerprint != cls._get_hash():" [plain "return -1, None"]
        ++ [plain "pos, msgs = cls._decode_nohash(buf, pos, maxlen, 1)"]
        ++ block "if pos < 0:" [plain "return -1, None"]
        ++ [plain "return pos, msgs[0]"])
    ++ [Line.blank, plain "@staticmethod"]
    ++ block "def _decode_nohash(buf, pos, maxlen, elems):"
      ([plain "msgs = []"]
        ++ block "for _ in range(elems):"
            (plain ("msg = " ++ flatName plan.struct.name ++ "()") :: steps.flatten
              ++ [plain "msgs.append(msg)"])
        ++ [plain "return pos, msgs"])

/-- The constructor, which gives each member its first value. -/
def initMethod (struct : Struct) : Except Numeral.Fault (List Line) := do
  let assignments ← struct.members.mapM fun member => do
    return plain ("self." ++ member.name ++ " = " ++ (← defaultValue member.type member.dimensions))
  return block "def __init__(self):" assignments ++ [Line.blank]

/-- The methods for comparing and showing values. -/
def valueMethods (struct : Struct) : List Line :=
  block "def __eq__(self, other):"
      (block ("if not isinstance(other, " ++ flatName struct.name ++ "):")
          [plain "return NotImplemented"]
        ++ [plain ("return all(getattr(self, s) == getattr(other, s) "
              ++ "for s in self.__slots__)")])
    ++ [Line.blank]
    ++ block "def __repr__(self):"
      [plain ("fields = \", \".join(f\"\x7bs\x7d=\x7bgetattr(self, s)!r\x7d\" "
          ++ "for s in self.__slots__)"),
       plain "return f\"\x7btype(self).__name__\x7d(\x7bfields\x7d)\""]
    ++ [Line.blank]

/-- The lines of the class of one struct. -/
def classLines (plan : TypePlan) : Except PlanFault (List Line) := do
  let slots := plan.struct.members.map fun member => "\"" ++ member.name ++ "\""
  let init ← (initMethod plan.struct).mapError .numeral
  let size ← (sizeMethods plan).mapError .numeral
  let encode ← encodeMethods plan
  let decode ← decodeMethods plan
  return block ("class " ++ flatName plan.struct.name ++ "(object):")
    ([plain ("\"\"\"LCM type " ++ plan.struct.name ++ ", fingerprint 0x"
        ++ hexText 16 plan.fingerprint.toNat ++ ".\"\"\""),
      Line.blank,
      plain ("__slots__ = [" ++ String.intercalate ", " slots ++ "]"),
      Line.blank,
      plain "_hash = None",
      Line.blank]
      ++ init ++ valueMethods plan.struct ++ hashMethods plan ++ size ++ encode ++ decode)

end Wireform.Backend
