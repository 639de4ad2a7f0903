import Wireform.Proofs.Backend.Shadowing

/-! # Names that the bodies of classes bind

The body of a generated class binds a name with each method and with each assignment at its own
level (`Wireform.Backend.bindingIn`), and it lists the members of the struct as slots
(`Wireform.Backend.classSlots`). A slot must not bear a name that the body binds. Members may not
have the names of the attributes on which the codecs rely, and these are all bound names but four: a
member may be called `__slots__`, `__init__`, `__eq__` or `__repr__`
(`Wireform.Backend.slot_bound_iff`). The slots and the bound names are read off the text of the
module.
-/

namespace Wireform.Backend

/-! ### Outermost lines -/

/-- The texts of the lines that stand at a depth, in order. -/
def textsAt (depth : Nat) (lines : List Line) : List String :=
  (lines.filter (·.depth = depth)).map Line.text

section TextsAt

variable (depth : Nat) (lines : List Line)

@[simp] private theorem textsAt_nil : textsAt depth [] = [] := rfl

/-- The texts at a depth are collected in order. -/
@[simp] theorem textsAt_append (first second : List Line) :
    textsAt depth (first ++ second) = textsAt depth first ++ textsAt depth second := by
  simp [textsAt]

@[simp] private theorem textsAt_deeper : textsAt (depth + 1)
    (deeper lines) = textsAt depth lines := by
  induction lines with
  | nil => rfl
  | cons line lines ih =>
      by_cases here : line.depth = depth
      · simpa [textsAt, Line.deeper, here] using ih
      · simpa [textsAt, Line.deeper, here] using ih

/-- Deeper lines do not stand outermost. -/
@[simp] theorem textsAt_zero_deeper : textsAt 0 (deeper lines) = [] := by
  simp [textsAt, deeper, Line.deeper]

@[simp] private theorem textsAt_zero_plain (text : String) :
    textsAt 0 (plain text :: lines) = text :: textsAt 0 lines := rfl

@[simp] private theorem textsAt_zero_blank : textsAt 0 (Line.blank :: lines) = "" ::
    textsAt 0 lines := rfl

/-- A block has its header alone at the outermost depth. -/
@[simp] theorem textsAt_zero_block (header : String) :
    textsAt 0 (block header lines) = [header] := by
  simp [block]

/-- The texts one level into a block are the outermost ones of its body. -/
theorem textsAt_one_block (header : String) : textsAt 1 (block header lines) = textsAt 0 lines := by
  rw [block, ← textsAt_deeper 0 lines]
  rfl

/-- Leaving out empty lines leaves out empty texts. -/
theorem textsAt_occupied :
    textsAt depth (occupied lines) = (textsAt depth lines).filter (!·.isEmpty) := by
  rw [textsAt, textsAt, occupied, List.filter_filter, List.filter_map, List.filter_filter]
  simp only [Function.comp_def, Bool.and_comm]

end TextsAt

/-! ### Slots and bound names -/

/-- The name that a line binds, as a method or by an assignment. -/
def bindingIn (text : String) : Option String :=
  let word := text.toList.takeWhile isWordPart
  let rest := text.toList.dropWhile isWordPart
  if word = "def".toList then some (String.ofList ((rest.drop 1).takeWhile isWordPart))
  else if " = ".toList.isPrefixOf rest then some (String.ofList word)
  else none

/-- The texts in double quotes. Inside of one, `word?` is the part that has been read. -/
def quotedTexts (word? : Option (List Char)) : List Char → List String
  | [] => []
  | c :: rest =>
      match word? with
      | none => quotedTexts (if c = '"' then some [] else none) rest
      | some word =>
          if c = '"' then String.ofList word :: quotedTexts none rest
          else quotedTexts (some (word ++ [c])) rest

/-- How the line of the slots starts. -/
def slotsMark : String := "__slots__ = ["

/-- Whether a line is that of the slots. -/
def listsSlots (text : String) : Bool := slotsMark.toList.isPrefixOf text.toList

/-- The slots of a class. -/
def classSlots (lines : List Line) : List String :=
  ((textsAt 1 lines).filter listsSlots).flatMap fun text => quotedTexts none text.toList

/-- The names that the body of a class binds, in order. -/
def classBindings (lines : List Line) : List String :=
  (textsAt 1 lines).filterMap bindingIn

/-- Text without quotes has no quoted texts. -/
theorem quotedTexts_outside {text : List Char} (plain : '"' ∉ text) (rest : List Char) :
    quotedTexts none (text ++ rest) = quotedTexts none rest := by
  induction text with
  | nil => rfl
  | cons c text ih =>
      rw [List.mem_cons, not_or] at plain
      rw [List.cons_append, quotedTexts, if_neg (Ne.symm plain.1), ih plain.2]

private theorem quotedTexts_inside {text : List Char} (plain : '"' ∉ text) (word rest : List Char) :
    quotedTexts (some word) (text ++ '"' :: rest) =
      String.ofList (word ++ text) :: quotedTexts none rest := by
  induction text generalizing word with
  | nil => simp [quotedTexts]
  | cons c text ih =>
      rw [List.mem_cons, not_or] at plain
      rw [List.cons_append, quotedTexts, if_neg (Ne.symm plain.1), ih plain.2, List.append_assoc,
        List.singleton_append]

/-- A name in quotes is read back. -/
theorem quotedTexts_quoted {name : String} (plain : '"' ∉ name.toList) (rest : List Char) :
    quotedTexts none (("\"" ++ name ++ "\"").toList ++ rest) = name :: quotedTexts none rest := by
  have shape : ("\"" ++ name ++ "\"").toList ++ rest = '"' :: (name.toList ++ '"' :: rest) := by
    simp
  rw [shape, quotedTexts, if_pos rfl, quotedTexts_inside plain, List.nil_append,
    String.ofList_toList]

/-- Names in quotes, with commas between them, are read back. -/
theorem quotedTexts_intercalate {names : List String} (plain : ∀ name ∈ names, '"' ∉ name.toList)
    {rest : List Char} (ends : '"' ∉ rest) :
    quotedTexts none
        ((String.intercalate ", " (names.map fun name => "\"" ++ name ++ "\"")).toList ++ rest) =
      names := by
  have stop : quotedTexts none rest = [] := by
    have whole := quotedTexts_outside ends []
    rwa [List.append_nil] at whole
  induction names with
  | nil => exact stop
  | cons name names ih =>
      obtain ⟨here, later⟩ := List.forall_mem_cons.mp plain
      cases names with
      | nil =>
          rw [List.map_singleton, String.intercalate_singleton, quotedTexts_quoted here, stop]
      | cons next names =>
          have comma : '"' ∉ ", ".toList := by simp
          rw [List.map_cons, List.map_cons, String.intercalate_cons_cons, String.toList_append,
            String.toList_append, List.append_assoc, List.append_assoc, quotedTexts_quoted here,
            quotedTexts_outside comma]
          exact congrArg (name :: ·) (ih later)

/-! ### The lines of a class at its own level -/

/-- The line of the slots of some names. -/
def slotsLine (names : List String) : String :=
  slotsMark ++ String.intercalate ", " (names.map fun name => "\"" ++ name ++ "\"") ++ "]"

/-- The lines at the level of a class below its slots, the same for each class. -/
def memberHeaders : List String :=
  ["_hash = None", "def __init__(self):", "def __eq__(self, other):", "def __repr__(self):",
   "@staticmethod", "def _compute_hash(parents):", "@classmethod", "def _get_hash(cls):",
   "def encoded_size(self):", "def _encoded_size_nohash(self):", "def encode(self):",
   "def encode_into(self, buf, pos, maxlen):", "@staticmethod",
   "def _encode_nohash(buf, pos, maxlen, msgs, elems):", "@classmethod", "def decode(cls, data):",
   "@classmethod", "def decode_from(cls, buf, pos, maxlen):", "@staticmethod",
   "def _decode_nohash(buf, pos, maxlen, elems):"]

/-- What stands at the level of a class: its description, its slots, and the same lines for each
class. -/
theorem textsAt_classLines {plan : TypePlan} {lines : List Line}
    (written : classLines plan = .ok lines) :
    ∃ description, description.toList.head? = some '"' ∧
      textsAt 1 (occupied lines) =
        description :: slotsLine (plan.struct.members.map (·.name)) :: memberHeaders := by
  obtain ⟨init, size, encode, decode, initWritten, sizeWritten, encodeWritten, decodeWritten,
    rfl⟩ :=
    classLines_eq_ok written
  obtain ⟨assignments, rfl, -⟩ := initMethod_eq_ok initWritten
  obtain ⟨start, sizes, -, -, rfl⟩ := sizeMethods_eq_ok sizeWritten
  obtain ⟨encodes, -, rfl⟩ := Outcome.returning_eq_ok.mp encodeWritten
  obtain ⟨decodes, -, rfl⟩ := Outcome.returning_eq_ok.mp decodeWritten
  refine ⟨"\"\"\"LCM type " ++ plan.struct.name ++ ", fingerprint 0x"
    ++ Text.hexText 16 plan.fingerprint.toNat ++ ".\"\"\"", by simp, ?_⟩
  rw [textsAt_occupied, textsAt_one_block]
  simp [valueMethods, hashMethods, memberHeaders, slotsLine, slotsMark, List.map_map,
    Function.comp_def]

/-! ### Clashes -/

/-- The names that the body of every class binds. -/
def boundNames : List String :=
  ["__slots__", "_hash", "__init__", "__eq__", "__repr__", "_compute_hash", "_get_hash",
   "encoded_size", "_encoded_size_nohash", "encode", "encode_into", "_encode_nohash", "decode",
   "decode_from", "_decode_nohash"]

/-- The bound names that members may have. -/
def unguardedNames : List String := ["__slots__", "__init__", "__eq__", "__repr__"]

/-- A description is a quoted text, and binds nothing. -/
theorem bindingIn_quoted {text : String} (quoted : text.toList.head? = some '"') :
    bindingIn text = none := by
  obtain ⟨rest, shape⟩ := List.head?_eq_some_iff.mp quoted
  have noWord : isWordPart '"' = false := rfl
  simp [bindingIn, shape, noWord]

private theorem bindingIn_slotsLine (names : List String) :
    bindingIn (slotsLine names) = some "__slots__" := by
  simp only [bindingIn, slotsLine, slotsMark, String.toList_append]
  rfl

private theorem filterMap_memberHeaders :
    "__slots__" :: memberHeaders.filterMap bindingIn = boundNames := by
  decide

/-- No other line is taken for that of the slots. -/
theorem filter_memberHeaders : memberHeaders.filter listsSlots = [] := by
  decide

private theorem toList_slotsLine (names : List String) :
    (slotsLine names).toList = slotsMark.toList ++
      ((String.intercalate ", " (names.map fun name => "\"" ++ name ++ "\"")).toList ++ [']']) := by
  rw [slotsLine, String.toList_append, String.toList_append, List.append_assoc]
  rfl

private theorem listsSlots_slotsLine (names : List String) : listsSlots
    (slotsLine names) = true := by
  rw [listsSlots, List.isPrefixOf_iff_prefix, toList_slotsLine]
  exact List.prefix_append _ _

private theorem quotedTexts_slotsLine {names : List String}
    (plain : ∀ name ∈ names, '"' ∉ name.toList) :
    quotedTexts none (slotsLine names).toList = names := by
  have mark : '"' ∉ slotsMark.toList := by simp [slotsMark]
  rw [toList_slotsLine, quotedTexts_outside mark, quotedTexts_intercalate plain (by simp)]

private theorem classBindings_classLines {plan : TypePlan} {lines : List Line}
    (written : classLines plan = .ok lines) : classBindings (occupied lines) = boundNames := by
  obtain ⟨description, quoted, texts⟩ := textsAt_classLines written
  rw [classBindings, texts, List.filterMap_cons_none (bindingIn_quoted quoted),
    List.filterMap_cons_some (bindingIn_slotsLine _), filterMap_memberHeaders]

/-- The slots of a class are the members of its struct. -/
theorem classSlots_classLines {plan : TypePlan} (known : ReadPlan plan) {lines : List Line}
    (written : classLines plan = .ok lines) :
    classSlots (occupied lines) = plan.struct.members.map (·.name) := by
  obtain ⟨description, quoted, texts⟩ := textsAt_classLines written
  have described : ¬ listsSlots description = true := by
    obtain ⟨rest, shape⟩ := List.head?_eq_some_iff.mp quoted
    rw [listsSlots, shape]
    exact Bool.false_ne_true
  have plain : ∀ name ∈ plan.struct.members.map (·.name), '"' ∉ name.toList := by
    intro name present inside
    obtain ⟨member, declared, rfl⟩ := List.mem_map.mp present
    exact absurd ((known.read.members member declared).name '"' inside) Bool.false_ne_true
  rw [classSlots, texts, List.filter_cons_of_neg described,
    List.filter_cons_of_pos (listsSlots_slotsLine _), filter_memberHeaders,
    List.flatMap_singleton, quotedTexts_slotsLine plain]

/-! ### Names of members -/

/-- A member name that passes is no keyword and no attribute of every class. -/
theorem checkMemberName_eq_ok {struct : String} {member : Member}
    (checked : checkMemberName struct member = .ok ()) :
    member.name ∉ pythonKeywords ∧ member.name ∉ classAttributes := by
  unfold checkMemberName at checked
  split at checked
  · cases checked
  · next keyword =>
      split at checked
      · cases checked
      · next clash =>
          exact ⟨fun word => keyword (List.contains_iff_mem.mpr word),
            fun reserved => clash (List.contains_iff_mem.mpr reserved)⟩

/-- The names of all members of a schema pass. -/
theorem checkMemberName_of_checkNames {structs : List Struct} {earlier : List String}
    (checked : Backend.checkNames earlier structs = .ok ()) :
    ∀ struct ∈ structs, ∀ member ∈ struct.members, checkMemberName struct.name member = .ok () := by
  induction structs generalizing earlier with
  | nil => exact List.forall_mem_nil _
  | cons struct structs ih =>
      obtain ⟨-, own, others⟩ := checkNames_cons_eq_ok checked
      exact List.forall_mem_cons.mpr ⟨own, ih others⟩

/-- The member names that pass are no attributes of every class. -/
theorem memberNames_of_checkNames {structs : List Struct} {earlier : List String}
    (checked : Backend.checkNames earlier structs = .ok ()) :
    ∀ struct ∈ structs, ∀ member ∈ struct.members, member.name ∉ classAttributes :=
  fun struct listed member declared =>
    (checkMemberName_eq_ok (checkMemberName_of_checkNames checked struct listed member declared)).2

private theorem mem_boundNames {name : String} :
    name ∈ boundNames ↔ name ∈ classAttributes ∨ name ∈ unguardedNames := by
  simp only [boundNames, classAttributes, unguardedNames, List.mem_cons, List.not_mem_nil]
  tauto

section Modules

variable {texts : List String} {schema : Schema} {source : Option String}
  {cache : FingerprintCache} {text : String} (read : Schema.ofTexts texts = .ok schema)
  (written : (pythonModule schema source cache).1 = .ok text)
include read written

/-- The slots and the bound names of a class in the text of a module. -/
theorem classBody_of_pythonModule {struct : Struct} (listed : struct ∈ schema.structs) :
    classSlots (pythonClass (flatName struct.name) text) = struct.members.map (·.name) ∧
      classBindings (pythonClass (flatName struct.name) text) = boundNames := by
  obtain ⟨plan, lines, rfl, known, linesWritten, same⟩ :=
    exists_pythonClass_eq read written listed
  rw [same]
  exact ⟨classSlots_classLines known linesWritten, classBindings_classLines linesWritten⟩

end Modules

/-- **Slots clash with their class exactly at four names.** In every module, the slots of a class
are the members of its struct, and the body of every class binds the same names. A slot has one of
these names exactly if it is called `__slots__`, `__init__`, `__eq__` or `__repr__`. -/
theorem slot_bound_iff {texts : List String} {schema : Schema} {source : Option String}
    {cache : FingerprintCache} {text : String} (read : Schema.ofTexts texts = .ok schema)
    (written : (pythonModule schema source cache).1 = .ok text) :
    ∀ struct ∈ schema.structs,
      classSlots (pythonClass (flatName struct.name) text) = struct.members.map (·.name) ∧
      classBindings (pythonClass (flatName struct.name) text) = boundNames ∧
      ∀ name ∈ classSlots (pythonClass (flatName struct.name) text),
        name ∈ classBindings (pythonClass (flatName struct.name) text) ↔ name ∈ unguardedNames := by
  intro struct listed
  obtain ⟨slots, bound⟩ := classBody_of_pythonModule read written listed
  rw [slots, bound]
  refine ⟨rfl, rfl, fun name slot => ?_⟩
  obtain ⟨member, declared, rfl⟩ := List.mem_map.mp slot
  have allowed := memberNames_of_checkNames (checkNames_of_pythonModule written) struct listed
    member declared
  rw [mem_boundNames, or_iff_right allowed]

/-- The slots of a point clash with nothing in its class. -/
theorem slot_bound_iff_point :
    ∃ schema text,
      Schema.ofTexts ["struct point \x7b double x; double y; \x7d"] = .ok schema ∧
      (pythonModule schema none []).1 = .ok text ∧
      classSlots (pythonClass "point" text) = ["x", "y"] ∧
      ∀ name ∈ classSlots (pythonClass "point" text),
        name ∉ classBindings (pythonClass "point" text) := by
  let struct : Struct := ⟨"point", [⟨"x", .primitive .double, []⟩, ⟨"y", .primitive .double, []⟩],
    15157235279719581829⟩
  let schema : Schema := ⟨[struct]⟩
  have read : Schema.ofTexts ["struct point \x7b double x; double y; \x7d"] = .ok schema := by
    decide +kernel
  obtain ⟨text, written⟩ : ∃ text, (pythonModule schema none []).1 = .ok text :=
    Outcome.exists_of_isOk (by decide +kernel)
  have own : flatName struct.name = "point" := by decide +kernel
  obtain ⟨slots, -, clashes⟩ := slot_bound_iff read written struct List.mem_cons_self
  rw [own] at slots clashes
  refine ⟨schema, text, read, written, slots, fun name slot bound => ?_⟩
  have unguarded := (clashes name slot).mp bound
  rw [slots] at slot
  have apart : ∀ name ∈ ["x", "y"], name ∉ unguardedNames := by decide
  exact apart name slot unguarded

/-- **A slot may clash with its class.** A member may be called `__init__`, which is the name of the
constructor of every class. -/
theorem slot_of_member_init :
    ∃ schema text,
      Schema.ofTexts ["struct a \x7b int32_t __init__; \x7d"] = .ok schema ∧
      (pythonModule schema none []).1 = .ok text ∧
      "__init__" ∈ classSlots (pythonClass "a" text) ∧
      "__init__" ∈ classBindings (pythonClass "a" text) := by
  let struct : Struct := ⟨"a", [⟨"__init__", .primitive .int32, []⟩], 15546031799162481804⟩
  let schema : Schema := ⟨[struct]⟩
  have read : Schema.ofTexts ["struct a \x7b int32_t __init__; \x7d"] = .ok schema := by
    decide +kernel
  obtain ⟨text, written⟩ : ∃ text, (pythonModule schema none []).1 = .ok text :=
    Outcome.exists_of_isOk (by decide +kernel)
  have own : flatName struct.name = "a" := by decide +kernel
  have listed : struct ∈ schema.structs := List.mem_cons_self
  obtain ⟨slots, bound⟩ := classBody_of_pythonModule read written listed
  rw [own] at slots bound
  refine ⟨schema, text, read, written, ?_, ?_⟩
  · rw [slots]
    exact List.mem_cons_self
  · rw [bound]
    exact mem_boundNames.mpr (.inr (by simp [unguardedNames]))

end Wireform.Backend
