import Wireform.Proofs.Backend.MatlabNesting
import Wireform.Proofs.Backend.MatlabStems
import Wireform.Proofs.Backend.PythonModules

/-! # Files of balanced MATLAB functions

Each generated file holds one function, and the blocks of all nine functions of a struct are
balanced. A line of a codec starts with fixed words, and so do most lines of the other functions;
the line that keeps a fingerprint starts with the stem instead, which may well be `end` or start
like a loop, but runs on without a blank (`Wireform.Backend.IsNeutral.of_solid`).

The lines of a file are read back from its text, so they have to be legible as well
(`Wireform.Backend.Nested`). The result for all files of a schema is
`Wireform.Backend.blocks_of_matlabFiles`.
-/

namespace Wireform.Backend

open Text (isBlank strip)

/-! ### Stems -/

private theorem isNamePart_eq_false_of_isBlank {c : Char} (blank : isBlank c = true) :
    Source.isNamePart c = false := by
  have marks : ∀ c ∈ ['_', '.'], isBlank c = false := List.all_iff_forall_prop.mp (by decide)
  have apart : ∀ d ∈ ['_', '.'], c ≠ d := by
    rintro d listed rfl
    rw [marks c listed] at blank
    cases blank
  simp only [Source.isNamePart, Text.isWordChar_eq_false_of_isBlank blank, Bool.false_or,
    Bool.or_eq_false_iff, beq_eq_false_iff_ne]
  exact ⟨apart '_' (by simp), apart '.' (by simp)⟩

private theorem isBlank_eq_false_of_isDigit {c : Char} (digit : c.isDigit = true) :
    isBlank c = false := by
  have each : ∀ n ∈ List.range' 48 10, Text.blankBoundaries.contains n = false := by decide
  refine each c.toNat (List.mem_range'_1.mpr ?_)
  simp only [Char.isDigit, Bool.and_eq_true, decide_eq_true_eq, UInt32.le_iff_toNat_le] at digit
  exact ⟨digit.1, Nat.lt_succ_of_le digit.2⟩

/-- A stem has no blanks. -/
theorem solid_matlabName {name : String} (dotted : Source.Dotted name) :
    ∀ c ∈ (matlabName name).toList, isBlank c = false := by
  have stored (p : Primitive) : ∀ c ∈ (storageClass p).toList, isBlank c = false :=
    List.all_iff_forall_prop.mp (by cases p <;> decide)
  intro c member
  refine Bool.eq_false_iff.mpr fun blank => ?_
  unfold matlabName at member
  split at member
  · rw [stored _ c member] at blank
    cases blank
  · exact not_mem_flatName dotted (isNamePart_eq_false_of_isBlank blank) member

/-- A text that can stand among the fixed words of a line. -/
structure IsFiller (text : String) : Prop where
  skips : indexFrame.Skips text
  unbroken : Unbroken text

private theorem isFiller_dotted {name : String} (dotted : Source.Dotted name) : IsFiller name :=
  ⟨skips_dotted dotted, .ofDotted dotted⟩

private theorem isFiller_matlabName {name : String} (dotted : Source.Dotted name) :
    IsFiller (matlabName name) :=
  ⟨skips_matlabName dotted, not_mem_matlabName rfl (Unbroken.flatName dotted)⟩

private theorem isFiller_hexText (width : Nat) (value : Int) : IsFiller
    (Text.hexText width value) :=
  ⟨skips_of_forall (fun _ member => isAlphanum_or_sign_of_mem_hexText member) (by decide),
    .hexText width value⟩

/-- A line that starts with a long word neither opens nor closes a block. -/
theorem IsNeutral.of_solid {text : String} {chars : List Char}
    (solid : ∀ c ∈ chars, isBlank c = false) (long : 6 ≤ chars.length)
    (starts : chars <+: text.toList) : IsNeutral text := by
  obtain ⟨rest, shape⟩ := starts
  have some : chars ≠ [] := by
    rintro rfl
    exact absurd long (by simp)
  obtain ⟨first, tail, rfl⟩ := List.exists_cons_of_ne_nil some
  have ends := List.getLast?_eq_some_getLast (List.cons_ne_nil first tail)
  have kept : first :: tail <+: strip (first :: tail ++ rest) :=
    prefix_strip rfl (solid first List.mem_cons_self) ends (solid _ (List.getLast_mem _))
  rw [shape] at kept
  constructor
  · -- the blank behind the word would stand among the characters
    rw [isOpener, List.any_eq_false]
    intro word listed found
    have blanks : ∀ word ∈ ["for ", "if ", "while "], ' ' ∈ word.toList ∧
        word.toList.length ≤ 6 := by simp
    obtain ⟨blank, short⟩ := blanks word listed
    have within := List.prefix_of_prefix_length_le (List.isPrefixOf_iff_prefix.mp found) kept
      (short.trans long)
    exact absurd (solid ' ' (within.subset blank)) (by decide)
  · refine decide_eq_false fun same => ?_
    rw [same] at kept
    have short := kept.length_le
    simp only [String.length_toList] at short
    exact absurd (long.trans short) (by decide)

/-! ### Lines that are legible and balanced -/

/-- Lines that can be read back, with the blocks in them. -/
structure Nested (scope : List String) (lines : List Line) : Prop where
  legible : LegibleLines lines
  balanced : Balanced scope lines

private theorem printed_of_starts {chars : List Char} {text : String}
    (solid : chars.head?.any (!isBlank ·) = true) (starts : chars <+: text.toList)
    (unbroken : Unbroken text) : Printed text := by
  have flush := flush_of_starts solid starts
  obtain ⟨rest, shape⟩ := starts
  cases chars with
  | nil => cases solid
  | cons c chars =>
      have first : text.toList.head? = some c := by
        rw [← shape]
        rfl
      refine ⟨unbroken, c, first, ?_⟩
      rintro rfl
      exact absurd (flush ' ' first) (by decide)

namespace Nested

variable {scope : List String} {first second rest : List Line}

private theorem nil : Nested scope [] := ⟨.nil, .nil⟩

private theorem append (left : Nested scope first) (right : Nested scope second) :
    Nested scope (first ++ second) :=
  ⟨left.legible.append right.legible, left.balanced.append right.balanced⟩

private theorem deeper (nested : Nested scope rest) : Nested scope (deeper rest) :=
  ⟨nested.legible.deeper, nested.balanced.deeper⟩

private theorem flatten {parts : List (List Line)} (each : ∀ part ∈ parts, Nested scope part) :
    Nested scope parts.flatten :=
  ⟨.flatten fun part present => (each part present).legible,
    .flatten fun part present => (each part present).balanced⟩

private theorem text {chars : List Char} {text : String} (checked : Balanced.leads chars = true)
    (starts : chars <+: text.toList) (unbroken : Unbroken text)
    (bound : indexFrame.Fits (IsBound scope) text) (later : Nested scope rest) :
    Nested scope (plain text :: rest) := by
  have solid := (Bool.and_eq_true_iff.mp checked).1
  exact ⟨.cons (printed_of_starts solid starts unbroken) later.legible,
    .text checked starts bound later.balanced⟩

/-- Lines that are nested each by itself. -/
theorem ofForall {lines : List Line} (each : ∀ line ∈ lines, Nested scope [line]) :
    Nested scope lines := by
  induction lines with
  | nil => exact .nil
  | cons line lines ih =>
      obtain ⟨here, later⟩ := List.forall_mem_cons.mp each
      exact here.append (ih later)

/-- Whether fixed words can start a line. -/
def isStart (chars : List Char) : Bool :=
  Balanced.leads chars && (indexFrame.words chars).all (·.head? != some 'd') &&
    chars.all (· != '\n')

private theorem fixed {chars : List Char} (checked : isStart chars = true)
    (later : Nested scope rest) :
    Nested scope (plain (String.ofList chars) :: rest) := by
  obtain ⟨words, unbroken⟩ := Bool.and_eq_true_iff.mp checked
  obtain ⟨leads, plain⟩ := Bool.and_eq_true_iff.mp words
  exact .text leads (prefix_ofList chars) (.ofList unbroken) (bound_ofList plain) later

/-- A line with a name among fixed words. -/
theorem named {before behind : List Char} {name : String} (checked : isStart before = true)
    (filler : IsFiller name)
    (anchored : indexFrame.Anchored (IsBound scope) (String.ofList behind))
    (closed : behind.all (· != '\n') = true) (later : Nested scope rest) :
    Nested scope (plain (String.ofList before ++ name ++ String.ofList behind) :: rest) := by
  obtain ⟨words, opened⟩ := Bool.and_eq_true_iff.mp checked
  obtain ⟨leads, plain⟩ := Bool.and_eq_true_iff.mp words
  refine .text leads ?_ ?_ ((bound_ofList plain).name filler.skips |>.anchor anchored).fits
    later
  · exact prefix_append (prefix_append (prefix_ofList before) _) _
  · exact ((Unbroken.ofList opened).append filler.unbroken).append (.ofList closed)

/-- A line that starts with a long word. -/
theorem word {text : String} {chars : List Char} (solid : ∀ c ∈ chars, isBlank c = false)
    (long : 6 ≤ chars.length) (starts : chars <+: text.toList) (unbroken : Unbroken text)
    (bound : indexFrame.Fits (IsBound scope) text) (later : Nested scope rest) :
    Nested scope (plain text :: rest) := by
  have first : chars.head?.any (!isBlank ·) = true := by
    cases chars with
    | nil => exact absurd long (by simp)
    | cons c chars => simp [solid c]
  have neutral := IsNeutral.of_solid solid long starts
  exact ⟨.cons (printed_of_starts first starts unbroken) later.legible,
    .line ⟨flush_of_starts first starts, bound⟩ neutral.opens neutral.closes later.balanced⟩

private theorem conditional {condition : String} {c : Char} {body : List Line}
    (starts : condition.toList.head? = some c) (solid : isBlank c = false)
    (unbroken : Unbroken condition)
    (bound : indexFrame.Fits (IsBound scope) ("if " ++ condition))
    (inside : Nested (("if " ++ condition) :: scope) body) :
    Nested scope (conditional condition body) :=
  ⟨.conditional unbroken inside.legible, .conditional starts solid bound inside.balanced⟩

/-- Whether fixed words open a block. -/
def isHeader (chars : List Char) : Bool :=
  chars.head?.any (!isBlank ·) && (indexFrame.words chars).all (·.head? != some 'd') &&
    chars.all (· != '\n') && isOpener (String.ofList chars)

private theorem header_of_isHeader {chars : List Char} (checked : isHeader chars = true) :
    Printed (String.ofList chars) ∧ Placed scope (String.ofList chars) ∧
      isOpener (String.ofList chars) = true := by
  obtain ⟨words, opens⟩ := Bool.and_eq_true_iff.mp checked
  obtain ⟨words, unbroken⟩ := Bool.and_eq_true_iff.mp words
  obtain ⟨solid, plain⟩ := Bool.and_eq_true_iff.mp words
  have starts := prefix_ofList chars
  exact ⟨printed_of_starts solid starts (.ofList unbroken),
    ⟨flush_of_starts solid starts, bound_ofList plain⟩, opens⟩

private theorem closedBlock {chars : List Char} {body : List Line} (checked : isHeader chars = true)
    (inside : Nested (String.ofList chars :: scope) body) :
    Nested scope (closedBlock (String.ofList chars) body "end") := by
  obtain ⟨printed, placed, opens⟩ := header_of_isHeader checked
  exact ⟨.closedBlock printed (.ofList rfl) inside.legible,
    .closedBlock placed opens inside.balanced⟩

/-- Two bodies below one condition. The line between them stands as deep as the condition, and
neither opens nor closes a block. -/
theorem alternative {chars : List Char} (checked : isHeader chars = true)
    (yes : Nested (String.ofList chars :: scope) first)
    (no : Nested (String.ofList chars :: scope) second) :
    Nested scope (block (String.ofList chars) first ++
      Backend.closedBlock "else" second "end") := by
  obtain ⟨printed, placed, opens⟩ := header_of_isHeader checked
  refine ⟨.append (.block printed yes.legible)
    (.closedBlock (.ofList rfl) (.ofList rfl) no.legible),
    ?_⟩
  have shape : block (String.ofList chars) first ++ Backend.closedBlock "else" second "end" =
      plain (String.ofList chars) ::
        ((Backend.deeper first ++ plain "else" :: Backend.deeper second) ++ [plain "end"]) := by
    simp only [block, Backend.closedBlock, List.cons_append, List.append_assoc]
  have inside : Balanced (String.ofList chars :: scope)
      (Backend.deeper first ++ plain "else" :: Backend.deeper second) :=
    yes.balanced.deeper.append (.fixed (by decide) no.balanced.deeper)
  rw [shape]
  exact .block placed opens inside .nil

private theorem positionCheck : Nested scope (Backend.conditional "pos < 1" [plain "return;"]) :=
  ⟨legible_positionCheck, .positionCheck⟩

end Nested

/-! ### Lines of files -/

private theorem not_mem_shape {member : Member}
    (read : ∀ dimension ∈ member.dimensions, dimension.Written) {c : Char}
    (symbol : Text.isDigit c = false) (apart : c ∉ ", ".toList) :
    c ∉ (String.intercalate ", "
      (if (member.dimensions.map fun d => if d.isConstant then d.size else "0").length = 1 then
        (member.dimensions.map fun d => if d.isConstant then d.size else "0") ++ ["1"]
      else member.dimensions.map fun d => if d.isConstant then d.size else "0")).toList := by
  have figure (figure : Char) (digit : Text.isDigit figure = true) : c ≠ figure := by
    rintro rfl
    rw [symbol] at digit
    cases digit
  have extents : ∀ text ∈ member.dimensions.map fun d => if d.isConstant then d.size else "0",
      c ∉ text.toList := by
    intro text present
    obtain ⟨dimension, listed, rfl⟩ := List.mem_map.mp present
    cases read dimension listed with
    | dynamic name => simpa using figure '0' (by decide)
    | constant digits =>
        have each := List.all_eq_true.mp (Bool.and_eq_true_iff.mp digits).2
        exact fun inside => figure c (each c inside) rfl
  refine not_mem_intercalate apart ?_
  split
  · refine List.forall_mem_append.mpr ⟨extents, List.forall_mem_singleton.mpr ?_⟩
    simpa using figure '1' (by decide)
  · exact extents

/-- The first value of a member stands in a line behind any fixed words. -/
theorem matlabDefault_parts {scope : List String} {member : Member}
    (read : member.ReadFrom Source.Dotted) :
    Unbroken (matlabDefault member) ∧
      indexFrame.Anchored (IsBound scope) (matlabDefault member) := by
  have unbroken := not_mem_shape read.dimensions (by decide) (by decide : '\n' ∉ _)
  have bound : indexFrame.Fits (IsBound scope) _ :=
    bound_of_not_mem (not_mem_shape read.dimensions (by decide) (by decide : 'd' ∉ _))
  have scalar : indexFrame.Anchored (IsBound scope) (matlabScalar member.type) :=
    anchored_matlabScalar read.type
  have single : Unbroken (matlabScalar member.type) := .matlabScalar read.type
  unfold matlabDefault
  dsimp only
  generalize String.intercalate ", " _ = shape at unbroken bound ⊢
  split
  · exact ⟨single, scalar⟩
  · split
    · have start : indexFrame.Anchored (IsBound scope) "\x7brepmat( \x7b''\x7d, [" :=
        anchored_ofList rfl
      refine ⟨((Unbroken.ofList rfl).append unbroken).append (.ofList rfl), ?_, ?_⟩
      · exact (start.toSettled.then bound).anchor (anchored_ofList rfl)
      · exact (start.toFirm.append shape).append _
    · have start : indexFrame.Fits (IsBound scope) "repmat( " := bound_ofList rfl
      have firm : indexFrame.Firm "repmat( " := ⟨rfl, by decide⟩
      refine ⟨(((Unbroken.ofList rfl).append single).append (.ofList rfl)).append unbroken
        |>.append (.ofList rfl), ?_, ?_⟩
      · exact (((start.anchor scalar).append (settled_ofList rfl)).then bound).anchor
          (anchored_ofList rfl)
      · exact ((firm.append _).append _).append shape |>.append _

/-- A field and its first value. -/
theorem nested_field {scope : List String} {member : Member}
    (read : member.ReadFrom Source.Dotted) {ending : List Char}
    (closed : ending.all (· != '\n') = true)
    (bound : indexFrame.Fits (IsBound scope) (String.ofList ending)) :
    Nested scope [plain ("'" ++ member.name ++ "', " ++ matlabDefault member ++
      String.ofList ending)] := by
  have name := isFiller_dotted read.name
  obtain ⟨unbroken, value⟩ := matlabDefault_parts read
  have starts : ['\''] <+: ("'" ++ member.name ++ "', " ++ matlabDefault member ++
      String.ofList ending).toList :=
    prefix_append (prefix_append (prefix_append (prefix_append (prefix_ofList _) _) _) _) _
  refine .text (by decide) starts ?_ ?_ .nil
  · exact (((Unbroken.ofList rfl).append name.unbroken).append (.ofList rfl)).append unbroken
      |>.append (.ofList closed)
  · exact (((Frame.Fits.name (bound_ofList rfl) name.skips).append (bound_ofList rfl) rfl).anchor
      value).then bound

private theorem nested_visitLines {dependency : String} (dotted : Source.Dotted dependency) :
    Nested [] (visitLines dependency) := by
  have named := isFiller_dotted dotted
  have compared (scope : List String) : Nested scope (conditional (toString dependency.length ++
      " == p_len && strcmp(parents(ix + 1:ix + p_len), '" ++ dependency ++ "')")
      [plain "visit = false;", plain "break"]) := by
    obtain ⟨digit, rest, digits⟩ : ∃ digit rest, (toString dependency.length).toList =
        digit :: rest := List.exists_cons_of_ne_nil (by simp)
    have figure : digit.isDigit = true :=
      isDigit_of_mem_toString (digits ▸ List.mem_cons_self)
    refine .conditional (head_append (head_append (head_append
      (List.head?_eq_some_iff.mpr ⟨rest, digits⟩) _) _) _) (isBlank_eq_false_of_isDigit figure)
      ?_ ?_ (.fixed (by decide) (.fixed (by decide) .nil))
    · exact (((Unbroken.toString _).append (.ofList rfl)).append named.unbroken).append
        (.ofList rfl)
    · rw [← String.append_assoc, ← String.append_assoc, ← String.append_assoc]
      exact ((Frame.Fits.name (bound_ofList rfl) (skips_toString _)).anchor (anchored_ofList rfl)
        |>.name named.skips).then (bound_ofList rfl)
  have added : Nested ["if visit"] [plain ("hash = add_overflow(hash, " ++
      matlabName dependency ++ "_computeHash(parents));")] :=
    .named (by decide) (isFiller_matlabName dotted) (anchored_ofList rfl) rfl .nil
  refine .append (.append (.fixed ?_ (.fixed ?_ .nil)) (.closedBlock ?_
    (.append (.append (.fixed ?_ .nil) (compared _)) (.fixed ?_ .nil)))) (.closedBlock ?_ added)
  all_goals decide

/-- Every term of a size plan is that of a member. -/
theorem legible_matlabSizeStep {member : Member} (read : member.ReadFrom Source.Dotted)
    {term : SizeTerm} (found : SizeTerm.ofMember member = .ok term) {lines : List Line}
    (written : matlabSizeStep term = .ok lines) : LegibleLines lines := by
  rcases SizeTerm.ofMember_eq_ok found with ⟨width, extents, -, -, -, rfl⟩ | ⟨rfl, -⟩
  · obtain rfl := Outcome.pure_eq_ok.mp written
    exact .nil
  · refine legible_countedLoops (.ofList rfl) (.cons ?_ .nil) read.dimensions written
    refine ((Printed.ofList rfl).append ?_).append (.ofList rfl)
    split
    · exact .toString _
    · have element := (Unbroken.ofList rfl : Unbroken "S").matlabElement (.ofDotted read.name)
        member.dimensions.length
      exact (((Unbroken.matlabElementName read.type).append (.ofList rfl)).append element).append
        (.ofList rfl)

private theorem Nested.steps {scope : List String}
    {write : FieldStep → Except Numeral.Fault (List Line)}
    {members : List Member} {steps : List (List Line)}
    (each : ∀ member ∈ members, ∀ lines, write (.ofMember member) = .ok lines →
      Nested scope lines)
    (written : (members.map FieldStep.ofMember).mapM write = .ok steps) :
    Nested scope steps.flatten := by
  refine .flatten fun lines present => ?_
  obtain ⟨member, listed, stepWritten⟩ := exists_of_mem_steps written present
  exact each member listed lines stepWritten

/-! ### Files -/

/-- The lines of a file are balanced if those of its function are. -/
theorem balanced_functionText {before behind : List Char} {stem : String} {body : List Line}
    (checked : (Nested.isStart before && !indexFrame.closesFirst before) = true)
    (filler : IsFiller stem)
    (anchored : indexFrame.Anchored (IsBound []) (String.ofList behind))
    (closed : behind.all (· != '\n') = true) (nested : Nested [] body) :
    Balanced [] (codeLines
      (functionText (String.ofList before ++ stem ++ String.ofList behind) body)) := by
  obtain ⟨starts, free⟩ := Bool.and_eq_true_iff.mp checked
  obtain ⟨words, opened⟩ := Bool.and_eq_true_iff.mp starts
  have signature : Unbroken (String.ofList before ++ stem ++ String.ofList behind) :=
    ((Unbroken.ofList opened).append filler.unbroken).append (.ofList closed)
  have comments : Balanced [] (codeLines fileHeader) := by
    rw [fileHeader_eq_layOut, codeLines_layOut legible_fileComments]
    refine Balanced.occupied ?_
    refine .fixed ?_ (.fixed ?_ (.fixed ?_ (.fixed ?_ (.fixed ?_ (.fixed ?_ (.fixed ?_ .nil))))))
    all_goals decide
  have ends : Balanced [] [plain "%endfunction", Line.blank] :=
    .fixed (by decide) (.blank .nil)
  have unclosed : indexFrame.closesFirst (String.ofList before).toList = false := by
    rw [String.toList_ofList]
    exact (Bool.not_eq_true' _).mp free
  have bound : indexFrame.Fits (IsBound [])
      ("function " ++ (String.ofList before ++ stem ++ String.ofList behind)) := by
    rw [← String.append_assoc, ← String.append_assoc]
    have plain := (Bool.and_eq_true_iff.mp words).2
    exact (Frame.Fits.append (bound_ofList rfl) (bound_ofList plain) unclosed
      |>.name filler.skips |>.anchor anchored).fits
  have opens : "function ".toList <+:
      ("function " ++ (String.ofList before ++ stem ++ String.ofList behind)).toList :=
    prefix_append (prefix_ofList _) _
  rw [codeLines_functionText signature nested.legible]
  exact comments.append
    (Balanced.occupied (.text (by decide) opens bound (nested.balanced.append ends)))

section Files

variable {stem : String} (filler : IsFiller stem)
include filler

private theorem balanced_encodeFile : Balanced [] (codeLines (encodeFile stem)) := by
  refine balanced_functionText (by decide) filler (anchored_ofList rfl) rfl (.deeper ?_)
  refine .append (.append (.named ?_ filler (anchored_ofList rfl) rfl (.fixed ?_ .nil))
    .positionCheck) (.named ?_ filler (anchored_ofList rfl) rfl .nil)
  all_goals decide

private theorem balanced_sizeFile : Balanced [] (codeLines (sizeFile stem)) := by
  refine balanced_functionText (by decide) filler (anchored_ofList rfl) rfl (.deeper ?_)
  exact .named (by decide) filler (anchored_ofList rfl) rfl .nil

private theorem balanced_decodeFile : Balanced [] (codeLines (decodeFile stem)) := by
  refine balanced_functionText (by decide) filler (anchored_ofList rfl) rfl (.deeper ?_)
  have start : Nested [] [plain "hash = uint32([0, 0]);",
      plain ("hash(1:2) = " ++ stem ++ "_hash();"), plain "readHash = uint32([0, 0]);",
      plain "[pos, readHash] = int64_decode_nohash(buf, pos, maxlen, readHash, 1);"] := by
    refine .fixed ?_ (.named ?_ filler (anchored_ofList rfl) rfl (.fixed ?_ (.fixed ?_ .nil)))
    all_goals decide
  rw [List.append_assoc]
  exact start.append (.alternative (by decide) (.fixed (by decide) .nil)
    (.named (by decide) filler (anchored_ofList rfl) rfl .nil))

private theorem balanced_hashFile (solid : ∀ c ∈ stem.toList, isBlank c = false) :
    Balanced [] (codeLines (hashFile stem)) := by
  refine balanced_functionText (by decide) filler (anchored_ofList rfl) rfl (.deeper ?_)
  refine .append (.append (.named ?_ filler (anchored_ofList rfl) rfl .nil) ?_)
    (.named ?_ filler (anchored_ofList rfl) rfl .nil)
  · decide
  · have whole : ∀ c ∈ stem.toList ++ "_hash_value".toList, isBlank c = false :=
      List.forall_mem_append.mpr ⟨solid, List.all_iff_forall_prop.mp (by decide)⟩
    have starts : stem.toList ++ "_hash_value".toList <+:
        (stem ++ "_hash_value = " ++ stem ++ "_computeHash([]);").toList :=
      ⟨" = ".toList ++ (stem ++ "_computeHash([]);").toList, by simp⟩
    refine .conditional (head_append (head_append (head_ofList _ _) _) _) (by decide)
      (((Unbroken.ofList rfl).append filler.unbroken).append (.ofList rfl)) ?_
      (.word whole (by simp) starts ?_ ?_ .nil)
    · rw [← String.append_assoc, ← String.append_assoc]
      exact ((Frame.Fits.append (bound_ofList rfl) (bound_ofList rfl) rfl).name filler.skips
        |>.anchor (anchored_ofList rfl)).fits
    · exact ((filler.unbroken.append (.ofList rfl)).append filler.unbroken).append (.ofList rfl)
    · exact ((filler.skips.settled.then (bound_ofList rfl)).name filler.skips
        |>.anchor (anchored_ofList rfl)).fits
  · decide

private theorem balanced_computeHashFile {plan : TypePlan} (known : ReadPlan plan) :
    Balanced [] (codeLines (computeHashFile stem plan)) := by
  refine balanced_functionText (by decide) filler (anchored_ofList rfl) rfl (.deeper ?_)
  have visits : Nested [] (plan.dependencies.flatMap visitLines) := by
    refine .flatten fun lines present => ?_
    obtain ⟨dependency, listed, rfl⟩ := List.mem_map.mp present
    exact nested_visitLines (known.dependency dependency listed)
  have name := isFiller_dotted known.read.name
  -- the length of the name stands where an index could
  have path : Nested [] [plain ("parents = [parents, " ++ toString plan.struct.name.length ++
      ", '" ++ plan.struct.name ++ "'];")] := by
    let path := "parents = [parents, " ++ toString plan.struct.name.length ++ ", '"
    have counted : 'd' ∉ path.toList := by
      have figures : 'd' ∉ (toString plan.struct.name.length).toList := fun member =>
        absurd (isDigit_of_mem_toString member) (by decide)
      simp only [path, String.toList_append, List.mem_append, not_or]
      exact ⟨⟨by simp, figures⟩, by simp⟩
    have shut : indexFrame.leavesOpen path.toList = false := by
      rw [String.toList_append, Frame.leavesOpen_append, if_neg (by decide)]
      rfl
    have settled : indexFrame.Settled (IsBound []) path := ⟨bound_of_not_mem counted, shut⟩
    have starts : "parents".toList <+: (path ++ plan.struct.name ++ "'];").toList :=
      prefix_append (prefix_append (prefix_append (prefix_append (by simp) _) _) _) _
    refine .text (by decide) starts ?_ ((settled.name name.skips).then (bound_ofList rfl))
      .nil
    exact Unbroken.ofList rfl |>.append (.toString _) |>.append (.ofList rfl)
      |>.append name.unbroken |>.append (.ofList rfl)
  have counted : Nested [] [plain "parents_len = length(parents);",
      plain ("hash = hex2int64('" ++ Text.hexText 16 plan.struct.baseHash ++ "');")] :=
    .fixed (by decide) (.named (by decide)
      (isFiller_hexText 16 plan.struct.baseHash) (anchored_ofList rfl) rfl .nil)
  refine .append (.append (.append path counted) visits)
    (.fixed ?_ (.fixed ?_ (.fixed ?_ (.fixed ?_ (.fixed ?_ (.fixed ?_ .nil))))))
  all_goals decide

private theorem balanced_newFile {struct : Struct} (read : struct.ReadFrom Source.Dotted) :
    Balanced [] (codeLines (newFile stem struct)) := by
  refine balanced_functionText (by decide) filler (anchored_ofList rfl) rfl (.deeper ?_)
  refine .fixed (by decide) (.deeper (.ofForall fun line present => ?_))
  obtain ⟨i, below, rfl⟩ := List.mem_mapIdx.mp present
  have member := read.members _ (List.getElem_mem below)
  split
  · exact nested_field member rfl (bound_ofList rfl)
  · exact nested_field member rfl (bound_ofList rfl)

private theorem balanced_encodeMembersFile {plan : TypePlan} (known : ReadPlan plan) {text : String}
    (written : encodeMembersFile stem plan = .ok text) : Balanced [] (codeLines text) := by
  obtain ⟨steps, stepsWritten, rfl⟩ := Outcome.returning_eq_ok.mp written
  rw [known.belongs.encode] at stepsWritten
  have nested : Nested ["for ix = 1:elems"] steps.flatten :=
    .steps (fun member listed lines own =>
      have read := known.read.members member listed
      ⟨legible_matlabEncodeStep read own, .encodeStep read own⟩) stepsWritten
  exact balanced_functionText (by decide) filler (anchored_ofList rfl) rfl
    (.deeper (.closedBlock (by decide) nested))

private theorem balanced_decodeMembersFile {plan : TypePlan} (known : ReadPlan plan) {text : String}
    (written : decodeMembersFile stem plan = .ok text) : Balanced [] (codeLines text) := by
  obtain ⟨steps, stepsWritten, rfl⟩ := Outcome.returning_eq_ok.mp written
  rw [known.belongs.decode] at stepsWritten
  have nested : Nested ["for ix = 1:elems"] steps.flatten :=
    .steps (fun member listed lines own =>
      have read := known.read.members member listed
      ⟨legible_matlabDecodeStep read own, .decodeStep read own⟩) stepsWritten
  exact balanced_functionText (by decide) filler (anchored_ofList rfl) rfl
    (.deeper (.closedBlock (by decide) nested))

private theorem balanced_sizeMembersFile {plan : TypePlan} (known : ReadPlan plan) {text : String}
    (written : sizeMembersFile stem plan = .ok text) : Balanced [] (codeLines text) := by
  obtain ⟨bytes, bytesWritten, rest⟩ := Outcome.bind_eq_ok.mp written
  obtain ⟨steps, stepsWritten, rfl⟩ := Outcome.returning_eq_ok.mp rest
  have nested : Nested [] steps.flatten := by
    refine .flatten fun lines present => ?_
    obtain ⟨owner, term, read, found, stepWritten⟩ := known.exists_of_mem_sizes stepsWritten present
    exact ⟨legible_matlabSizeStep read found stepWritten, .sizeStep read found stepWritten⟩
  -- the bytes stand where an index could
  have started : Nested [] [plain ("s = uint32(" ++ bytes ++ ");")] := by
    have counted : 'd' ∉ ("s = uint32(" ++ bytes ++ ");").toList := by
      have figures : 'd' ∉ bytes.toList := fun member =>
        absurd (isDigit_or_sign_of_write bytesWritten member) (by decide)
      simp only [String.toList_append, List.mem_append, not_or]
      exact ⟨⟨by simp, figures⟩, by simp⟩
    have starts : "s = uint32(".toList <+: ("s = uint32(" ++ bytes ++ ");").toList :=
      prefix_append (prefix_append (prefix_ofList _) _) _
    refine .text (by decide) starts ?_ (bound_of_not_mem counted) .nil
    exact ((Unbroken.ofList rfl).append (.write bytesWritten)).append (.ofList rfl)
  exact balanced_functionText (by decide) filler (anchored_ofList rfl) rfl
    (.deeper (started.append nested))

end Files

/-- The lines of every file of a struct are balanced. -/
theorem balanced_structFiles {plan : TypePlan} (known : ReadPlan plan)
    {files : List (String × String)} (written : structFiles plan = .ok files) :
    ∀ file ∈ files, Balanced [] (codeLines file.2) := by
  obtain ⟨encode, decode, size, encodeWritten, decodeWritten, sizeWritten, rfl⟩ :=
    structFiles_parts written
  have filler := isFiller_matlabName known.read.name
  have solid := solid_matlabName known.read.name
  simp only [List.forall_mem_cons, List.not_mem_nil, false_imp_iff, implies_true, and_true]
  exact ⟨balanced_newFile filler known.read, balanced_encodeFile filler,
    balanced_decodeFile filler, balanced_sizeFile filler, balanced_hashFile filler solid,
    balanced_encodeMembersFile filler known encodeWritten,
    balanced_decodeMembersFile filler known decodeWritten,
    balanced_sizeMembersFile filler known sizeWritten, balanced_computeHashFile filler known⟩

/-- **The blocks of every generated function are closed, and hold the loops of its indices.** In
every file, no line starts with a blank apart from its indentation, every line that closes a block
stands as deep as the line that opened it, and no block is left open. A line with the index variable
of a level in an element expression stands in a block that is opened by the loop of that level. -/
theorem blocks_of_matlabFiles {texts : List String} {schema : Schema} {cache : FingerprintCache}
    {files : List (String × String)} (read : Schema.ofTexts texts = .ok schema)
    (written : (matlabFiles schema cache).1 = .ok files) :
    ∀ file ∈ files,
      (∀ line ∈ codeLines file.2, ∀ c ∈ line.text.toList.head?, isBlank c = false) ∧
      openBlocks [] (codeLines file.2) = some [] ∧
      ∀ before line after, codeLines file.2 = before ++ line :: after →
        ∀ level, HasIndex level line.text →
          ∃ opened, openBlocks [] before = some opened ∧
            ∃ opener ∈ opened, OpensLoop level opener.text := by
  obtain ⟨plans, after, parts, planned, made, rfl⟩ := matlabFiles_eq_ok written
  intro file member
  have collected := (Pairs.mem_of_mem_setAll member).resolve_left List.not_mem_nil
  obtain ⟨part, present, inside⟩ := List.mem_flatten.mp collected
  obtain ⟨plan, listed, own⟩ := Outcome.exists_of_mem_mapM made present
  have known := readPlan_of_plans read planned plan listed
  have balanced := balanced_structFiles known own file inside
  exact ⟨balanced.flush, balanced.openBlocks_eq [], fun before line after shape level =>
    balanced.exists_opener rfl shape⟩

/-- The codecs of a row of rows of texts have two levels of loops. -/
theorem blocks_of_matlabFiles_rows :
    ∃ schema files,
      Schema.ofTexts ["struct cell \x7b int32_t n; string rows[2][n]; \x7d"] = .ok schema ∧
      (matlabFiles schema []).1 = .ok files ∧ files.length = 9 ∧
      ∀ file ∈ files, openBlocks [] (codeLines file.2) = some [] ∧
        ∀ before line after, codeLines file.2 = before ++ line :: after → HasIndex 1 line.text →
          ∃ opened, openBlocks [] before = some opened ∧
            ∃ opener ∈ opened, OpensLoop 1 opener.text := by
  let rows : Member := ⟨"rows", .primitive .string, [.constant "2", .dynamic "n"]⟩
  let schema : Schema :=
    ⟨[⟨"cell", [⟨"n", .primitive .int32, []⟩, rows], 18113312609934389864⟩]⟩
  have read : Schema.ofTexts ["struct cell \x7b int32_t n; string rows[2][n]; \x7d"] =
      .ok schema := by
    decide +kernel
  obtain ⟨files, written⟩ : ∃ files, (matlabFiles schema []).1 = .ok files :=
    Outcome.exists_of_isOk (by decide +kernel)
  have nine : files.length = 9 := (length_matlabFiles written).trans (by decide +kernel)
  refine ⟨schema, files, read, written, nine, fun file member => ?_⟩
  obtain ⟨-, closed, loops⟩ := blocks_of_matlabFiles read written file member
  exact ⟨closed, fun before line after shape => loops before line after shape 1⟩

end Wireform.Backend
