import Wireform.Proofs.Backend.PythonModules
import Wireform.Proofs.Backend.PythonWords

/-! # Names in generated Python classes

The classes of a generated module use names for many things that are not classes: the helpers and
packers of the prelude, builtins, the parameters and variables of their methods, loop counters and
lists under construction (`Wireform.Backend.IsRelied`). Every name in a class is one of these, a
keyword, or the name of a class (`Wireform.Backend.usesKnown_classLines`). The proofs follow the
functions that write a class: each text is read part by part, fixed words by running the reader on
them and names by what is known of the struct.
-/

namespace Wireform.Backend

/-! ### Names that classes use -/

/-- The name that a line at the start of a module binds, as the name of an import, of a function or
of a constant. -/
def boundName (text : List Char) : List Char :=
  let first := text.takeWhile isWordPart
  if first = "def".toList ∨ first = "import".toList then
    ((text.dropWhile isWordPart).drop 1).takeWhile isWordPart
  else first

/-- The names that the prelude binds. -/
def preludeNames : List String :=
  (modulePrelude.filter fun line => line.depth = 0 && !line.text.isEmpty).map fun line =>
    String.ofList (boundName line.text.toList)

/-- The names that the prelude of a module defines. -/
theorem preludeNames_eq : preludeNames =
    ["struct", "_INT8", "_INT16", "_UINT16", "_INT32", "_UINT32", "_INT64", "_BYTE", "_FLOAT",
     "_DOUBLE", "_BOOLEAN", "_FINGERPRINT", "_MASK64", "_encode_value", "_decode_value",
     "_string_size", "_encode_string", "_decode_string"] := by
  decide +kernel

/-- The builtins that classes use. -/
def calledBuiltins : List String :=
  ["len", "range", "ValueError", "min", "all", "bytes", "bytearray", "getattr", "isinstance",
   "type", "object", "staticmethod", "classmethod", "NotImplemented"]

/-- The parameters and the variables of methods. -/
def methodVariables : List String :=
  ["pos", "msg", "self", "buf", "maxlen", "cls", "msgs", "elems", "ix", "_v", "_", "size",
   "parents", "tmphash", "other", "s", "fields", "data", "fingerprint"]

/-- A name that classes use for something that is not a class of the schema. -/
inductive IsRelied (name : String) : Prop where
  | helper (listed : name ∈ preludeNames)
  | builtin (listed : name ∈ calledBuiltins)
  | inMethod (listed : name ∈ methodVariables)
  | counter (level : Nat) (same : name = "d" ++ toString level)
  | list (level : Nat) (same : name = "_t" ++ toString level)

/-- The names that may stand in the methods of a class. -/
def IsKnown (classes : List String) (name : String) : Prop :=
  name ∈ pythonKeywords ∨ IsRelied name ∨ name ∈ classes

/-- The attributes that the body of a class assigns. -/
def assignedAttributes : List String := ["__slots__", "_hash"]

/-! ### Fixed words -/

/-- The helpers among the fixed words of classes. -/
def helperWords : List String :=
  ["_encode_value", "_decode_value", "_string_size", "_encode_string", "_decode_string",
   "_FINGERPRINT", "_MASK64"]

/-- The keywords among the fixed words of classes. -/
def keywordWords : List String :=
  ["return", "if", "for", "in", "def", "None", "raise", "not", "False", "is", "or", "class"]

/-- The names among the fixed words of classes, the frequent ones first. -/
def fixedNames : List String := methodVariables ++ keywordWords ++ calledBuiltins ++ helperWords

private theorem mem_preludeNames_of_helperWords : ∀ name ∈ helperWords, name ∈ preludeNames := by
  simp [helperWords, preludeNames_eq]

private theorem mem_pythonKeywords_of_keywordWords :
    ∀ name ∈ keywordWords, name ∈ pythonKeywords := by
  simp [keywordWords, pythonKeywords]

section Classes

variable {classes : List String}

private theorem isKnown_of_mem_fixedNames {name : String} (listed : name ∈ fixedNames) :
    IsKnown classes name := by
  rcases List.mem_append.mp listed with others | helper
  · rcases List.mem_append.mp others with others | builtin
    · rcases List.mem_append.mp others with inMethod | keyword
      · exact .inr (.inl (.inMethod inMethod))
      · exact .inl (mem_pythonKeywords_of_keywordWords name keyword)
    · exact .inr (.inl (.builtin builtin))
  · exact .inr (.inl (.helper (mem_preludeNames_of_helperWords name helper)))

/-- Fixed words are read by running the reader. -/
theorem Reads.fixed {start final : Reader} {chars : List Char}
    (checked : start.leads fixedNames chars final = true) :
    Reads (IsKnown classes) (Eq start) (String.ofList chars) (Eq final) :=
  .ofList (fun _ => isKnown_of_mem_fixedNames) checked

private theorem Reads.last {start : Reader} {chars : List Char}
    (checked : start.settles fixedNames chars = true) :
    Reads (IsKnown classes) (Eq start) (String.ofList chars)
      (Reader.Settled (IsKnown classes)) :=
  .settling (fun _ => isKnown_of_mem_fixedNames) checked

/-- Fixed words that follow a word. -/
theorem Reads.next {final : Reader} {c : Char} {chars : List Char}
    (checked : (isStop c && Reader.leads fixedNames { isFree := !(c == '.' || c == '!') } chars
      final) = true) :
    Reads (IsKnown classes) (Reader.Settled (IsKnown classes)) (String.ofList (c :: chars))
      (Eq final) :=
  .stop (Bool.and_eq_true_iff.mp checked).1 (.fixed (Bool.and_eq_true_iff.mp checked).2)

private theorem Reads.close {c : Char} {chars : List Char}
    (checked : (isStop c && Reader.settles fixedNames { isFree := !(c == '.' || c == '!') }
      chars) = true) :
    Reads (IsKnown classes) (Reader.Settled (IsKnown classes)) (String.ofList (c :: chars))
      (Reader.Settled (IsKnown classes)) :=
  .stop (Bool.and_eq_true_iff.mp checked).1 (.last (Bool.and_eq_true_iff.mp checked).2)

/-- A text in code that uses known names alone and may end with one. -/
abbrev Scoped (classes : List String) (text : String) : Prop :=
  Reads (IsKnown classes) (Eq .fresh) text (Reader.Settled (IsKnown classes))

/-! ### Expressions -/

/-- A type that has a class in the module. -/
structure HasClass (classes : List String) (type : String) : Prop where
  dotted : Source.Dotted type
  listed : flatName type ∈ classes
  allowed : flatName type ∉ pythonKeywords

/-- A type that is primitive or has a class in the module. -/
def IsServed (classes : List String) (type : FieldType) : Prop :=
  ∀ name, type = .compound name → HasClass classes name

private theorem isWordPart_of_mem_flatName {name : String} (dotted : Source.Dotted name) {c : Char}
    (member : c ∈ (flatName name).toList) : isWordPart c = true := by
  simp only [flatName, String.toList_ofList, List.mem_map] at member
  obtain ⟨original, present, rfl⟩ := member
  split
  · rfl
  · next solid => exact (isWordPart_of_isNamePart (dotted original present)).resolve_right solid

private theorem scoped_flatName {type : String} (own : HasClass classes type) :
    Scoped classes (flatName type) := by
  -- the two keywords behind which a word does not stand on its own
  have word (keyword : List Char) (listed : String.ofList keyword ∈ pythonKeywords) :
      [] ++ (flatName type).toList ≠ keyword := by
    rintro rfl
    rw [List.nil_append, String.ofList_toList] at listed
    exact own.allowed listed
  refine .word (fun c => isWordPart_of_mem_flatName own.dotted) (Reader.settled_of_known ?_ ?_ ?_)
  · rw [List.nil_append, String.ofList_toList]
    exact .inr (.inr own.listed)
  · exact word _ (mem_pythonKeywords_of_keywordWords "def" (by simp [keywordWords]))
  · exact word _ (mem_pythonKeywords_of_keywordWords "class" (by simp [keywordWords]))

private theorem isWordPart_of_mem_toString {n : Nat} {c : Char} (member : c ∈ (toString n).toList) :
    isWordPart c = true := by
  simp [isWordPart, Char.isAlphanum, isDigit_of_mem_toString member]

/-- The level in the name of a counter. -/
theorem Reads.counter (level : Nat) :
    Reads (IsKnown classes) (Eq { word := ['d'] }) (toString level)
      (Reader.Settled (IsKnown classes)) := by
  refine .word (fun c => isWordPart_of_mem_toString) (Reader.settled_of_known ?_ ?_ (by simp))
  · rw [String.ofList_append, String.ofList_toList]
    exact .inr (.inl (.counter level rfl))
  · intro same
    have letters : (toString level).toList = ['e', 'f'] := List.cons.inj same |>.2
    have member : 'e' ∈ (toString level).toList := letters ▸ List.mem_cons_self
    exact absurd (isDigit_of_mem_toString member) (by decide)

/-- The level in the name of a list under construction. -/
theorem Reads.list (level : Nat) :
    Reads (IsKnown classes) (Eq { word := ['_', 't'] }) (toString level)
      (Reader.Settled (IsKnown classes)) := by
  refine .word (fun c => isWordPart_of_mem_toString)
    (Reader.settled_of_known ?_ (by simp) (by simp))
  rw [String.ofList_append, String.ofList_toList]
  exact .inr (.inl (.list level rfl))

private theorem scoped_list (level : Nat) : Scoped classes ("_t" ++ toString level) :=
  Reads.append (.fixed (by rfl)) (.list level)

private theorem scoped_toString (n : Nat) : Scoped classes (toString n) :=
  .numeral fun _ member => .inl (isDigit_of_mem_toString member)

private theorem scoped_write {value : Int} {text : String}
    (written : Numeral.write value = .ok text) :
    Scoped classes text :=
  .numeral fun _ => isDigit_or_sign_of_write written

private theorem scoped_extentText {owner text : String} {dimension : Dimension}
    (outer : Scoped classes owner) (read : dimension.Written)
    (written : extentText owner dimension = .ok text) : Scoped classes text := by
  rcases extentText_cases written with ⟨-, value, -, numeral⟩ | ⟨dynamic, rfl⟩
  · exact scoped_write numeral
  · exact outer.append (.next (by rfl)) |>.append (.attribute (read.dotted dynamic))

private theorem scoped_elementText {owner member : String} (outer : Scoped classes owner)
    (inner : Source.Dotted member) (depth : Nat) :
    Scoped classes (elementText owner member depth) := by
  refine outer.append (.next (by rfl)) |>.append (.attribute inner) |>.append (.join ?_)
  intro text present
  obtain ⟨level, -, rfl⟩ := List.mem_map.mp present
  exact Reads.append (.next (by rfl)) (.counter level) |>.append (.close rfl)

private theorem scoped_packer {p : Primitive} {packer : String} (packed : packer? p = some packer) :
    Scoped classes packer := by
  have listed : packer ∈ preludeNames := by
    cases p <;> cases packed <;> simp [preludeNames_eq]
  have covered : ∀ name ∈ [packer], IsKnown classes name := by
    intro name same
    obtain rfl := List.mem_singleton.mp same
    exact .inr (.inl (.helper listed))
  cases p <;> cases packed <;> exact .settling covered rfl

private theorem scoped_encodeCall {type : FieldType} {value call : String}
    (served : IsServed classes type)
    (inner : Scoped classes value) (written : encodeCall type value = .ok call) :
    Scoped classes call := by
  rcases encodeCall_cases written with ⟨-, rfl⟩ | ⟨p, packer, -, packed, rfl⟩ | ⟨name, same, rfl⟩
  · exact Reads.append (.fixed (by rfl)) inner |>.append (.close rfl)
  · exact Reads.append (.fixed (by rfl)) (scoped_packer packed) |>.append (.next (by rfl))
      |>.append inner |>.append (.close rfl)
  · exact (scoped_flatName (served name same)).append (.next (by rfl)) |>.append inner
      |>.append (.close rfl)

private theorem scoped_decodeCall {type : FieldType} {call : String}
    (served : IsServed classes type)
    (written : decodeCall type = .ok call) : Scoped classes call := by
  rcases decodeCall_cases written with ⟨-, rfl⟩ | ⟨p, packer, -, packed, rfl⟩ | ⟨name, same, rfl⟩
  · exact .last rfl
  · exact Reads.append (.fixed (by rfl)) (scoped_packer packed) |>.append (.close rfl)
  · exact (scoped_flatName (served name same)).append (.close rfl)

private theorem scoped_elementSize {type : FieldType} {width : Option Nat} {value : String}
    (inner : Scoped classes value) : Scoped classes (elementSize type width value) := by
  unfold elementSize
  split
  · exact scoped_toString _
  · exact Reads.append (.fixed (by rfl)) inner |>.append (.close rfl)
  · exact inner.append (.close rfl)

private theorem scoped_defaultValue {type : FieldType} (served : IsServed classes type)
    {dimensions : List Dimension} {text : String}
    (written : defaultValue type dimensions = .ok text) : Scoped classes text := by
  induction dimensions generalizing text with
  | nil =>
      obtain rfl := Outcome.pure_eq_ok.mp written
      unfold defaultScalar
      split
      · exact .last rfl
      · exact .last rfl
      · exact .last rfl
      · exact .last rfl
      · exact .last rfl
      · next name => exact (scoped_flatName (served name rfl)).append (.close rfl)
  | cons dimension dimensions ih =>
      rcases defaultValue_cons_eq_ok written with
        ⟨inner, value, extent, innerWritten, numeral, rfl⟩ | rfl
      · exact Reads.append (.fixed (by rfl)) (ih innerWritten) |>.append (.next (by rfl))
          |>.append (scoped_write numeral) |>.append (.close rfl)
      · exact .last rfl

/-- The entry of a name on a path stands between brackets. -/
theorem Reads.pathPair (name : String) :
    Reads (IsKnown classes) (Eq .fresh) (pathPair name) (Eq .fresh) :=
  Reads.append (.fixed (by rfl)) (scoped_toString _) |>.append (.next (by rfl))
    |>.append (.quote name) |>.append (.fixed (by rfl))

/-! ### Lines -/

/-- A text whose names are known. -/
def NamesKnown (classes : List String) (text : String) : Prop :=
  ∀ name ∈ namesIn text, IsKnown classes name

private theorem Scoped.namesKnown {text : String} (inScope : Scoped classes text) :
    NamesKnown classes text :=
  Reads.namesIn (inScope.mono fun _ settled => settled.ends)

/-- Lines whose names are known. -/
def ScopedLines (classes : List String) (lines : List Line) : Prop :=
  ∀ line ∈ lines, NamesKnown classes line.text

private theorem ScopedLines.nil : ScopedLines classes [] := List.forall_mem_nil _

private theorem ScopedLines.cons {text : String} (first : Scoped classes text) {lines : List Line}
    (rest : ScopedLines classes lines) : ScopedLines classes (plain text :: lines) :=
  List.forall_mem_cons.mpr ⟨Scoped.namesKnown first, rest⟩

private theorem ScopedLines.blank {lines : List Line} (rest : ScopedLines classes lines) :
    ScopedLines classes (Line.blank :: lines) :=
  List.forall_mem_cons.mpr ⟨List.forall_mem_nil _, rest⟩

private theorem ScopedLines.append {first second : List Line} (left : ScopedLines classes first)
    (right : ScopedLines classes second) : ScopedLines classes (first ++ second) :=
  List.forall_mem_append.mpr ⟨left, right⟩

private theorem ScopedLines.block {header : String} (head : Scoped classes header)
    {body : List Line}
    (below : ScopedLines classes body) : ScopedLines classes (block header body) :=
  forall_mem_block (Scoped.namesKnown head) below

private theorem ScopedLines.flatten {parts : List (List Line)}
    (each : ∀ lines ∈ parts, ScopedLines classes lines) : ScopedLines classes parts.flatten := by
  intro line member
  obtain ⟨lines, present, inside⟩ := List.mem_flatten.mp member
  exact each lines present line inside

/-! ### Steps -/

private theorem scoped_lengthChecks {step : FieldStep} {fail : String}
    (failing : Scoped classes fail)
    (read : ∀ dimension ∈ step.loops, dimension.Written) :
    ScopedLines classes (lengthChecks step fail) := by
  refine .flatten ?_
  intro lines present
  obtain ⟨length, member, rfl⟩ := List.mem_map.mp present
  have name := dotted_of_mem_lengthMembers read member
  exact .block (Reads.append (.fixed (by rfl)) (.attribute name) |>.append (.close rfl))
    (.cons failing .nil)

private theorem scoped_boundCheck {step : FieldStep}
    (read : ∀ dimension ∈ step.loops, dimension.Written) :
    ScopedLines classes (boundCheck step) := by
  unfold boundCheck
  split
  · exact .nil
  · next length bounded =>
      split
      · exact .nil
      · have name := dotted_of_boundedLength? read bounded
        exact .block (Reads.append (.fixed (by rfl)) (.attribute name) |>.append (.close rfl))
          (.cons (.last rfl) .nil)

/-- The header of a loop. -/
theorem scoped_loop {extent : String} (bound : Scoped classes extent) (level : Nat) :
    Scoped classes ("for d" ++ toString level ++ " in range(" ++ extent ++ "):") :=
  Reads.append (.fixed (by rfl)) (.counter level) |>.append (.next (by rfl)) |>.append bound
    |>.append (.close rfl)

private theorem scoped_checkedLoops {owner member : String} {fail : Line} {body lines : List Line}
    {level : Nat} {dimensions : List Dimension} (outer : Scoped classes owner)
    (inner : Source.Dotted member) (fails : ScopedLines classes [fail])
    (below : ScopedLines classes body) (read : ∀ dimension ∈ dimensions, dimension.Written)
    (written : checkedLoops owner member fail body level dimensions = .ok lines) :
    ScopedLines classes lines := by
  induction dimensions generalizing level lines with
  | nil =>
      obtain rfl := Outcome.pure_eq_ok.mp written
      exact below
  | cons dimension dimensions ih =>
      obtain ⟨extent, deep, extentWritten, innerWritten, rfl⟩ := checkedLoops_cons_eq_ok written
      have bound := scoped_extentText outer (read dimension List.mem_cons_self) extentWritten
      have nested := ih (fun later member => read later (List.mem_cons_of_mem _ member))
        innerWritten
      refine .append (.block ?_ fails) (.block (scoped_loop bound level) nested)
      exact Reads.append (.fixed (by rfl)) (scoped_elementText outer inner level)
        |>.append (.next (by rfl)) |>.append bound |>.append (.close rfl)

private theorem scoped_fillingLoops {owner value : String} {body lines : List Line} {level : Nat}
    {dimensions : List Dimension} (outer : Scoped classes owner) (filled : Scoped classes value)
    (below : ScopedLines classes body) (read : ∀ dimension ∈ dimensions, dimension.Written)
    (written : fillingLoops owner body value level dimensions = .ok lines) :
    ScopedLines classes lines := by
  induction dimensions generalizing level lines with
  | nil =>
      obtain rfl := Outcome.pure_eq_ok.mp written
      exact below
  | cons dimension dimensions ih =>
      obtain ⟨extent, filling, item, extentWritten, rfl, shape⟩ := fillingLoops_cons_eq_ok written
      have bound := scoped_extentText outer (read dimension List.mem_cons_self) extentWritten
      have inside : ScopedLines classes filling ∧ Scoped classes item := by
        rcases shape with ⟨-, rfl, rfl⟩ | ⟨inner, innerWritten, rfl, rfl⟩
        · exact ⟨below, filled⟩
        · have nested := ih (fun later member => read later (List.mem_cons_of_mem _ member))
            innerWritten
          exact ⟨.cons ((scoped_list (level + 1)).append (.close rfl)) nested,
            scoped_list (level + 1)⟩
      refine .block (scoped_loop bound level) (.append inside.1 (.cons ?_ .nil))
      exact (scoped_list level).append (.next (by rfl)) |>.append inside.2 |>.append (.close rfl)

private theorem scoped_encodeStep {member : Member} (read : member.ReadFrom Source.Dotted)
    (served : IsServed classes member.type) {lines : List Line}
    (written : encodeStep (.ofMember member) = .ok lines) : ScopedLines classes lines := by
  obtain ⟨call, loops, called, loopsWritten, rfl⟩ := encodeStep_eq_ok written
  have owner : Scoped classes "msg" := .last rfl
  have failing : Scoped classes "return -1" := .last rfl
  have known := scoped_encodeCall served
    (scoped_elementText owner read.name member.dimensions.length) called
  have body : ScopedLines classes (writingLines call) :=
    .cons (Reads.append (.fixed (by rfl)) known) (.block (.last rfl) (.cons failing .nil))
  refine .append (scoped_lengthChecks failing read.dimensions) ?_
  exact scoped_checkedLoops owner read.name (.cons failing .nil) body read.dimensions loopsWritten

private theorem scoped_decodeStep {member : Member} (read : member.ReadFrom Source.Dotted)
    (served : IsServed classes member.type) {lines : List Line}
    (written : decodeStep (.ofMember member) = .ok lines) : ScopedLines classes lines := by
  have failing : Scoped classes "return -1, None" := .last rfl
  have target : Reads (IsKnown classes) (Eq .fresh) ("msg." ++ member.name ++ " = ")
      (Eq .fresh) :=
    Reads.append (.fixed (by rfl)) (.attribute read.name) |>.append (.next (by rfl))
  obtain ⟨call, value, moved, called, rfl, chosen, shape⟩ := decodeStep_eq_ok written
  have reading : ScopedLines classes (readingLines call) :=
    .cons (Reads.append (.fixed (by rfl)) (scoped_decodeCall served called))
      (.block (.last rfl) (.cons failing .nil))
  have filled : Scoped classes value := by
    rw [chosen]
    split <;> exact .last rfl
  refine .append (.append (scoped_lengthChecks failing read.dimensions)
    (scoped_boundCheck read.dimensions)) ?_
  have name : "_t" ++ toString 0 = "_t0" := rfl
  have start : "_t0" ++ " = []" = "_t0 = []" := by simp
  have list : Scoped classes "_t0" := name ▸ scoped_list 0
  have empty : Scoped classes "_t0 = []" := start ▸ list.append (.close rfl)
  rcases shape with ⟨-, rfl⟩ | ⟨-, loops, loopsWritten, rfl⟩
  · exact .append reading (.cons (target.append filled) .nil)
  · have filling := scoped_fillingLoops (.last rfl) filled reading read.dimensions loopsWritten
    exact .append (.cons empty filling) (.cons (target.append list) .nil)

/-! ### Methods -/

private theorem scoped_initMethod {struct : Struct} (read : struct.ReadFrom Source.Dotted)
    (served : ∀ member ∈ struct.members, IsServed classes member.type) {lines : List Line}
    (written : initMethod struct = .ok lines) : ScopedLines classes lines := by
  obtain ⟨assignments, rfl, -, assigned⟩ := initMethod_eq_ok written
  refine .append (.block (.last rfl) ?_) (.blank .nil)
  intro line present
  obtain ⟨member, known, value, valueWritten, rfl⟩ := assigned line present
  have name := (read.members member known).name
  have inScope : Scoped classes ("self." ++ member.name ++ " = " ++ value) :=
    Reads.append (.fixed (by rfl)) (.attribute name) |>.append (.next (by rfl))
      |>.append (scoped_defaultValue (served member known) valueWritten)
  exact inScope.namesKnown

private theorem scoped_valueMethods {struct : Struct} (own : HasClass classes struct.name) :
    ScopedLines classes (valueMethods struct) := by
  have kind : Scoped classes ("if not isinstance(other, " ++ flatName struct.name ++ "):") :=
    Reads.append (.fixed (by rfl)) (scoped_flatName own) |>.append (.close rfl)
  have compared : Reads (IsKnown classes) (Eq .fresh)
      "return all(getattr(self, s) == getattr(other, s) " (Eq .fresh) := .fixed (by rfl)
  have shown : Reads (IsKnown classes) (Eq .fresh)
      "fields = \", \".join(f\"\x7bs\x7d=\x7bgetattr(self, s)!r\x7d\" " (Eq .fresh) :=
    .fixed (by rfl)
  unfold valueMethods
  with_reducible repeat' first
    | exact kind
    | exact compared.append (.last rfl)
    | exact shown.append (.last rfl)
    | apply ScopedLines.append
    | apply ScopedLines.block
    | apply ScopedLines.cons
    | apply ScopedLines.blank
    | exact .nil
    | exact .last rfl

private theorem scoped_hashMethods {plan : TypePlan} (read : plan.struct.ReadFrom Source.Dotted)
    (types : ∀ dependency ∈ plan.dependencies, HasClass classes dependency) :
    ScopedLines classes (hashMethods plan) := by
  have visits : ScopedLines classes (plan.dependencies.flatMap fun dependency =>
      block ("if " ++ pathPair dependency ++ " not in parents:")
        [plain ("tmphash = (tmphash + " ++ flatName dependency
          ++ "._compute_hash(parents)) & _MASK64")]) := by
    refine .flatten ?_
    intro lines present
    obtain ⟨dependency, member, rfl⟩ := List.mem_map.mp present
    have name := scoped_flatName (types dependency member)
    exact .block (Reads.append (.fixed (by rfl)) (.pathPair dependency) |>.append (.last rfl))
      (.cons (Reads.append (.fixed (by rfl)) name |>.append (.close rfl)) .nil)
  have path : Scoped classes ("parents = parents + (" ++ pathPair plan.struct.name ++ ",)") :=
    Reads.append (.fixed (by rfl)) (.pathPair plan.struct.name) |>.append (.last rfl)
  have base : Scoped classes ("tmphash = 0x" ++ Text.hexText 16 plan.struct.baseHash) := by
    rw [read.baseHash]
    exact Reads.append (.fixed (by rfl)) (.hexNumeral 16 _)
  unfold hashMethods
  with_reducible repeat' first
    | exact visits
    | exact path
    | exact base
    | apply ScopedLines.append
    | apply ScopedLines.block
    | apply ScopedLines.cons
    | apply ScopedLines.blank
    | exact .nil
    | exact .last rfl

private theorem scoped_sizeStep {struct : String} (dotted : Source.Dotted struct) {member : Member}
    (read : member.ReadFrom Source.Dotted) {term : SizeTerm}
    (found : SizeTerm.ofMember member = .ok term) {lines : List Line}
    (written : sizeStep struct term = .ok lines) : ScopedLines classes lines := by
  rcases SizeTerm.ofMember_eq_ok found with ⟨width, extents, -, -, -, rfl⟩ | ⟨rfl, -⟩
  · obtain rfl := Outcome.pure_eq_ok.mp written
    exact .nil
  · have owner : Scoped classes "self" := .last rfl
    have element := scoped_elementText owner read.name member.dimensions.length
    refine scoped_checkedLoops owner read.name (.cons ?_ .nil) (.cons ?_ .nil) read.dimensions
      written
    · exact Reads.append (.fixed (by rfl)) (.insideDotted dotted) |>.append (.fixed (by rfl))
        |>.append (.insideDotted read.name) |>.append (.last rfl)
    · exact Reads.append (.fixed (by rfl)) (scoped_elementSize element)

private theorem scoped_sizeStart {plan : SizePlan} {line : Line}
    (written : sizeStart plan = .ok line) :
    ScopedLines classes [line] := by
  rcases sizeStart_eq_ok written with rfl | ⟨bytes, bytesWritten, rfl⟩
  · exact .cons (.last rfl) .nil
  · refine List.forall_mem_cons.mpr ⟨Reads.namesIn ?_, List.forall_mem_nil _⟩
    exact Reads.append (.fixed (by rfl)) (scoped_write bytesWritten) |>.append (.next (by rfl))
      |>.append (.remark _)

private theorem scoped_sizeMethods {plan : TypePlan} (known : ReadPlan plan) {lines : List Line}
    (written : sizeMethods plan = .ok lines) : ScopedLines classes lines := by
  obtain ⟨start, steps, startWritten, stepsWritten, rfl⟩ := sizeMethods_eq_ok written
  have stepsScoped : ScopedLines classes steps.flatten := by
    refine .flatten fun step present => ?_
    obtain ⟨owner, term, read, found, stepWritten⟩ := known.exists_of_mem_sizes stepsWritten present
    exact scoped_sizeStep known.read.name read found stepWritten
  have body : ScopedLines classes (start :: steps.flatten ++ [plain "return size"]) :=
    .append (.append (scoped_sizeStart startWritten) stepsScoped) (.cons (.last rfl) .nil)
  exact .append (.append (.append (.block (.last rfl) (.cons (.last rfl) .nil)) (.blank .nil))
    (.block (.last rfl) body)) (.blank .nil)

private theorem scoped_encodeMethods {plan : TypePlan} (known : ReadPlan plan)
    (own : HasClass classes plan.struct.name)
    (served : ∀ member ∈ plan.struct.members, IsServed classes member.type) {lines : List Line}
    (written : encodeMethods plan = .ok lines) : ScopedLines classes lines := by
  obtain ⟨steps, stepsWritten, rfl⟩ := Outcome.returning_eq_ok.mp written
  rw [known.belongs.encode] at stepsWritten
  have stepsScoped : ScopedLines classes steps.flatten :=
    forall_mem_steps (fun member listed lines => scoped_encodeStep
      (known.read.members member listed) (served member listed)) stepsWritten
  have failure : Scoped classes ("raise ValueError(\"" ++ plan.struct.name ++
      ": encode failed\")") :=
    Reads.append (.fixed (by rfl)) (.insideDotted known.read.name) |>.append (.last rfl)
  have call : Scoped classes ("return " ++ flatName plan.struct.name
      ++ "._encode_nohash(buf, pos, maxlen, [self], 1)") :=
    Reads.append (.fixed (by rfl)) (scoped_flatName own) |>.append (.close rfl)
  with_reducible repeat' first
    | exact stepsScoped
    | exact failure
    | exact call
    | apply ScopedLines.append
    | apply ScopedLines.block
    | apply ScopedLines.cons
    | apply ScopedLines.blank
    | exact .nil
    | exact .last rfl

private theorem scoped_decodeMethods {plan : TypePlan} (known : ReadPlan plan)
    (own : HasClass classes plan.struct.name)
    (served : ∀ member ∈ plan.struct.members, IsServed classes member.type) {lines : List Line}
    (written : decodeMethods plan = .ok lines) : ScopedLines classes lines := by
  obtain ⟨steps, stepsWritten, rfl⟩ := Outcome.returning_eq_ok.mp written
  rw [known.belongs.decode] at stepsWritten
  have stepsScoped : ScopedLines classes steps.flatten :=
    forall_mem_steps (fun member listed lines => scoped_decodeStep
      (known.read.members member listed) (served member listed)) stepsWritten
  have failure : Scoped classes ("raise ValueError(\"" ++ plan.struct.name ++
      ": decode failed\")") :=
    Reads.append (.fixed (by rfl)) (.insideDotted known.read.name) |>.append (.last rfl)
  have empty : Scoped classes ("msg = " ++ flatName plan.struct.name ++ "()") :=
    Reads.append (.fixed (by rfl)) (scoped_flatName own) |>.append (.close rfl)
  with_reducible repeat' first
    | exact stepsScoped
    | exact failure
    | exact empty
    | apply ScopedLines.append
    | apply ScopedLines.block
    | apply ScopedLines.cons
    | apply ScopedLines.blank
    | exact .nil
    | exact .last rfl

/-! ### Classes -/

/-- The names in a line of a class are known, or are attributes that its body assigns. -/
def UsesKnown (classes : List String) (line : Line) : Prop :=
  ∀ name ∈ namesIn line.text,
    IsKnown classes name ∨ line.depth = 1 ∧ name ∈ assignedAttributes

private theorem ScopedLines.usesKnown {lines : List Line} (inScope : ScopedLines classes lines) :
    ∀ line ∈ deeper lines, UsesKnown classes line := by
  intro line inside name member
  obtain ⟨shallow, listed, rfl⟩ := List.mem_map.mp inside
  exact .inl (inScope shallow listed name member)

/-- The lines in which the body of a class assigns its attributes. -/
theorem usesKnown_attributes {members : List Member}
    (dotted : ∀ member ∈ members, Source.Dotted member.name) :
    UsesKnown classes ⟨1, "__slots__ = [" ++ String.intercalate ", "
        (members.map fun member => "\"" ++ member.name ++ "\"") ++ "]"⟩ ∧
      UsesKnown classes ⟨1, "_hash = None"⟩ := by
  -- both lines stand at depth 1, and `None` is the only other name in them
  let known (name : String) : Prop := IsKnown classes name ∨ 1 = 1 ∧ name ∈ assignedAttributes
  have listed : ∀ name ∈ "None" :: assignedAttributes, known name := by
    refine List.forall_mem_cons.mpr ⟨.inl (.inl ?_), fun name assigned => .inr ⟨rfl, assigned⟩⟩
    exact mem_pythonKeywords_of_keywordWords "None" (by simp [keywordWords])
  have slots : Reads known (Eq .fresh) (String.intercalate ", "
      (members.map fun member => "\"" ++ member.name ++ "\"")) (Eq .fresh) := by
    refine .intercalate (.ofList listed (by rfl)) ?_
    intro text present
    obtain ⟨member, declared, rfl⟩ := List.mem_map.mp present
    exact Reads.append (.ofList listed (by rfl)) (.insideDotted (dotted member declared))
      |>.append (.ofList listed (by rfl))
  have assignment : Reads known (Eq .fresh) ("__slots__ = [" ++ String.intercalate ", "
      (members.map fun member => "\"" ++ member.name ++ "\"") ++ "]") (Reader.Settled known) :=
    Reads.append (.ofList listed (by rfl)) slots |>.append (.settling listed rfl)
  have start : Reads known (Eq .fresh) "_hash = None" (Reader.Settled known) := .settling listed rfl
  exact ⟨(assignment.mono fun _ settled => settled.ends).namesIn,
    (start.mono fun _ settled => settled.ends).namesIn⟩

private theorem dotted_flatName {name : String} (dotted : Source.Dotted name) :
    Source.Dotted (flatName name) := by
  intro c member
  by_contra outside
  exact not_mem_flatName dotted (Bool.eq_false_iff.mpr outside) member

/-- **The names in a class are known.** -/
theorem usesKnown_classLines {plan : TypePlan} (known : ReadPlan plan)
    (own : HasClass classes plan.struct.name)
    (served : ∀ member ∈ plan.struct.members, IsServed classes member.type) {lines : List Line}
    (written : classLines plan = .ok lines) : ∀ line ∈ lines, UsesKnown classes line := by
  obtain ⟨init, size, encode, decode, initWritten, sizeWritten, encodeWritten, decodeWritten,
    rfl⟩ :=
    classLines_eq_ok written
  have header : Scoped classes ("class " ++ flatName plan.struct.name ++ "(object):") :=
    Reads.append (.fixed (by rfl)) (.attribute (dotted_flatName known.read.name))
      |>.append (.close rfl)
  have title : Scoped classes ("\"\"\"LCM type " ++ plan.struct.name ++ ", fingerprint 0x"
      ++ Text.hexText 16 plan.fingerprint.toNat ++ ".\"\"\"") :=
    Reads.append (.fixed (by rfl)) (.insideDotted known.read.name) |>.append (.fixed (by rfl))
      |>.append (.insideHex 16 _) |>.append (.last rfl)
  have dependencies : ∀ dependency ∈ plan.dependencies, HasClass classes dependency := by
    intro dependency present
    rw [known.belongs.dependencies] at present
    obtain ⟨member, listed, compound⟩ := Struct.exists_of_mem_dependencies present
    exact served member listed dependency compound
  have methods : ScopedLines classes
      (init ++ valueMethods plan.struct ++ hashMethods plan ++ size ++ encode ++ decode) :=
    scoped_initMethod known.read served initWritten
      |>.append (scoped_valueMethods own)
      |>.append (scoped_hashMethods known.read dependencies)
      |>.append (scoped_sizeMethods known sizeWritten)
      |>.append (scoped_encodeMethods known own served encodeWritten)
      |>.append (scoped_decodeMethods known own served decodeWritten)
  have attributes : ∀ member ∈ plan.struct.members, Source.Dotted member.name :=
    fun member listed => (known.read.members member listed).name
  obtain ⟨slots, hash⟩ := usesKnown_attributes attributes
  have blank : UsesKnown classes Line.blank.deeper := List.forall_mem_nil _
  refine List.forall_mem_cons.mpr ⟨fun name used => .inl (header.namesKnown name used), ?_⟩
  simp only [List.append_assoc, deeper_append, deeper_cons, List.cons_append,
    List.nil_append, List.forall_mem_cons]
  refine ⟨fun name used => .inl (title.namesKnown name used), blank, slots, blank, hash, blank, ?_⟩
  simpa only [List.append_assoc, deeper_append] using methods.usesKnown

end Classes

end Wireform.Backend
