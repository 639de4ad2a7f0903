import Wireform.Backend.Layout

/-!
# The prelude of a generated Python module

The part of a generated module that is the same for every schema: the packers of the primitives and
the helpers that write and read single values and strings. A helper reports a failure by the
position -1.
-/

namespace Wireform.Backend

/-- The helper that writes one value of a fixed width. -/
def encodeValueHelper : List Line :=
  block "def _encode_value(buf, pos, maxlen, packer, value):" <|
    [plain "end = pos + packer.size"]
    ++ block "if end > maxlen:" [plain "return -1"]
    ++ [plain "packer.pack_into(buf, pos, value)", plain "return end"]

/-- The helper that reads one value of a fixed width. -/
def decodeValueHelper : List Line :=
  block "def _decode_value(buf, pos, maxlen, packer):" <|
    [plain "end = pos + packer.size"]
    ++ block "if end > maxlen:" [plain "return -1, None"]
    ++ [plain "return end, packer.unpack_from(buf, pos)[0]"]

/-- The helper that gives the encoded size of a string. -/
def stringSizeHelper : List Line :=
  block "def _string_size(value):" [plain "return 4 + len(value.encode(\"utf-8\")) + 1"]

/-- The helper that writes a string. -/
def encodeStringHelper : List Line :=
  block "def _encode_string(buf, pos, maxlen, value):" <|
    [plain "data = value.encode(\"utf-8\") + b\"\\0\"",
     plain "pos = _encode_value(buf, pos, maxlen, _INT32, len(data))"]
    ++ block "if pos < 0 or pos + len(data) > maxlen:" [plain "return -1"]
    ++ [plain "buf[pos:pos + len(data)] = data", plain "return pos + len(data)"]

/-- The helper that reads a string. -/
def decodeStringHelper : List Line :=
  block "def _decode_string(buf, pos, maxlen):" <|
    [plain "pos, length = _decode_value(buf, pos, maxlen, _INT32)"]
    ++ block
        "if pos < 0 or length < 1 or pos + length > maxlen or buf[pos + length - 1] != 0:"
        [plain "return -1, None"]
    ++ block "try:" [plain "value = bytes(buf[pos:pos + length - 1]).decode(\"utf-8\")"]
    ++ block "except UnicodeDecodeError:" [plain "return -1, None"]
    ++ [plain "return pos + length, value"]

/-- The packers and the constants of a generated module. -/
def constants : List Line :=
  [plain "_INT8 = struct.Struct(\">b\")",
   plain "_INT16 = struct.Struct(\">h\")",
   plain "_UINT16 = struct.Struct(\">H\")",
   plain "_INT32 = struct.Struct(\">i\")",
   plain "_UINT32 = struct.Struct(\">I\")",
   plain "_INT64 = struct.Struct(\">q\")",
   plain "_BYTE = struct.Struct(\">B\")",
   plain "_FLOAT = struct.Struct(\">f\")",
   plain "_DOUBLE = struct.Struct(\">d\")",
   plain "_BOOLEAN = struct.Struct(\">?\")",
   plain "_FINGERPRINT = struct.Struct(\">Q\")",
   plain "_MASK64 = 0xffffffffffffffff"]

/-- Two empty lines, as between the definitions of a module. -/
def gap : List Line := [Line.blank, Line.blank]

/-- The part of a generated module that is the same for every schema. -/
def modulePrelude : List Line :=
  [plain "import struct", Line.blank] ++ constants
    ++ gap ++ encodeValueHelper
    ++ gap ++ decodeValueHelper
    ++ gap ++ stringSizeHelper
    ++ gap ++ encodeStringHelper
    ++ gap ++ decodeStringHelper

end Wireform.Backend
