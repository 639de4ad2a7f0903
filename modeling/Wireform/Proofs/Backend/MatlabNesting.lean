import Mathlib.Data.Bool.AllAny
import Mathlib.Data.List.DropRight
import Std.Data.String.ToNat
import Wireform.Proofs.Backend.MatlabBlocks

/-! # Nesting of generated MATLAB functions

A generated line is put together from fixed words, names, numerals, and elements. Whether it opens
or closes a block can be seen from the fixed words it starts with, since no name comes before them
(`Wireform.Backend.IsNeutral.of_prefix`). Index variables come from elements alone, and those of an
element are the levels of the loops over the dimensions of its member
(`Wireform.Backend.anchored_matlabElement`). Each loop adds its header to the openers around its
body, so below the loops of all dimensions every index variable has its loop
(`Wireform.Backend.Balanced.countedLoops`), and the steps of all members are balanced below any
openers.
-/

namespace Wireform.Backend

open Text (isBlank strip)

/-! ### Lines by their starts -/

/-- A text that ends with no blank in front of more text keeps its place when blanks are taken off.
-/
theorem prefix_strip {first rest : List Char} {c d : Char} (starts : first.head? = some c)
    (solid : isBlank c = false) (ends : first.getLast? = some d) (firm : isBlank d = false) :
    first <+: strip (first ++ rest) := by
  have head : (first ++ rest).dropWhile isBlank = first ++ rest := by
    obtain ⟨tail, rfl⟩ := List.head?_eq_some_iff.mp starts
    rw [List.cons_append, List.dropWhile_cons_of_neg (by rw [solid]; exact Bool.false_ne_true)]
  have last : first.reverse.dropWhile isBlank = first.reverse := by
    rw [← List.head?_reverse] at ends
    obtain ⟨tail, shape⟩ := List.head?_eq_some_iff.mp ends
    rw [shape, List.dropWhile_cons_of_neg (by rw [firm]; exact Bool.false_ne_true)]
  rw [strip, head, List.reverse_append, List.dropWhile_append, last]
  split
  · rw [List.reverse_reverse]
  · rw [List.reverse_append, List.reverse_reverse]
    exact List.prefix_append _ _

/-- Taking blanks off a text that starts with none leaves a start of it. -/
theorem strip_starts {text : List Char} (flush : ∀ c ∈ text.head?, isBlank c = false) :
    strip text <+: text := by
  have head : text.dropWhile isBlank = text := by
    cases text with
    | nil => rfl
    | cons c rest =>
        rw [List.dropWhile_cons_of_neg (by rw [flush c rfl]; exact Bool.false_ne_true)]
  rw [strip, head]
  exact List.rdropWhile_prefix isBlank text

private theorem isOpener_of_starts {word text : String} (listed : word ∈ ["for ", "if ", "while "])
    {c : Char} (solid : isBlank c = false) (starts : word.toList ++ [c] <+: text.toList) :
    isOpener text = true := by
  have heads : ∀ word ∈ ["for ", "if ", "while "], ∃ d, word.toList.head? = some d ∧
      isBlank d = false := by
    simp only [List.forall_mem_cons, List.not_mem_nil, false_imp_iff, implies_true, and_true]
    exact ⟨⟨_, rfl, by decide⟩, ⟨_, rfl, by decide⟩, ⟨_, rfl, by decide⟩⟩
  obtain ⟨d, head, flush⟩ := heads word listed
  obtain ⟨rest, shape⟩ := starts
  have first : (word.toList ++ [c]).head? = some d := by
    rw [List.head?_append, head, Option.some_or]
  have kept : _ <+: strip (word.toList ++ [c] ++ rest) :=
    prefix_strip first flush List.getLast?_concat solid
  rw [shape] at kept
  rw [isOpener, List.any_eq_true]
  exact ⟨word, listed, List.isPrefixOf_iff_prefix.mpr ((List.prefix_append _ _).trans kept)⟩

/-- The words that blocks start and end with. -/
def blockMarks : List (List Char) :=
  [['f', 'o', 'r', ' '], ['i', 'f', ' '], ['w', 'h', 'i', 'l', 'e', ' '], ['e', 'n', 'd']]

/-- A text that differs from each of these words in a character both have. -/
def differs (chars : List Char) : Bool :=
  blockMarks.all fun word => (chars.zip word).any fun pair => pair.1 != pair.2

private theorem not_prefix_of_zip {chars word : List Char}
    (apart : ((chars.zip word).any fun pair => pair.1 != pair.2) = true) (rest : List Char) :
    ¬ word <+: chars ++ rest := by
  induction chars generalizing word with
  | nil => cases apart
  | cons c chars ih =>
      cases word with
      | nil => cases apart
      | cons d word =>
          rw [List.cons_append, List.cons_prefix_cons]
          rintro ⟨rfl, later⟩
          rw [List.zip_cons_cons, List.any_cons, bne_self_eq_false, Bool.false_or] at apart
          exact ih apart later

/-- A line that neither opens nor closes a block. -/
structure IsNeutral (text : String) : Prop where
  opens : isOpener text = false
  closes : isCloser text = false

private theorem IsNeutral.of_prefix {text : String} {chars : List Char}
    (flush : ∀ c ∈ text.toList.head?, isBlank c = false) (apart : differs chars = true)
    (starts : chars <+: text.toList) : IsNeutral text := by
  obtain ⟨rest, shape⟩ := starts
  have absent : ∀ word ∈ blockMarks, ¬ word <+: strip text.toList := by
    intro word listed found
    have checked := List.all_eq_true.mp apart word listed
    exact not_prefix_of_zip checked rest (shape ▸ found.trans (strip_starts flush))
  constructor
  · rw [isOpener, List.any_eq_false]
    intro word listed found
    have marks : ∀ word ∈ ["for ", "if ", "while "], word.toList ∈ blockMarks := by
      simp [blockMarks]
    exact absent _ (marks word listed) (List.isPrefixOf_iff_prefix.mp found)
  · refine decide_eq_false fun same => absent "end".toList (by simp [blockMarks]) ?_
    rw [same]

/-- Fixed characters are a prefix of themselves. -/
theorem prefix_ofList (chars : List Char) : chars <+: (String.ofList chars).toList := by
  rw [String.toList_ofList]

/-- A prefix stays one when more text follows. -/
theorem prefix_append {chars : List Char} {first : String} (starts : chars <+: first.toList)
    (second : String) : chars <+: (first ++ second).toList := by
  rw [String.toList_append]
  exact starts.trans (List.prefix_append _ _)

/-- A text that starts with a solid character is flush. -/
theorem flush_of_starts {chars : List Char} {text : String}
    (solid : chars.head?.any (!isBlank ·) = true) (starts : chars <+: text.toList) :
    ∀ c ∈ text.toList.head?, isBlank c = false := by
  obtain ⟨rest, shape⟩ := starts
  cases chars with
  | nil => cases solid
  | cons c chars =>
      intro d first
      rw [← shape, List.cons_append, List.head?_cons, Option.mem_some] at first
      subst first
      simpa using solid

/-! ### Parts of lines -/

section Parts

variable {scope : List String}

/-- Fixed words have no index variables. -/
theorem bound_ofList {chars : List Char}
    (checked : (indexFrame.words chars).all (·.head? != some 'd') = true) :
    indexFrame.Fits (IsBound scope) (String.ofList chars) := by
  intro word found level same
  rw [String.toList_ofList] at found
  have plain := List.all_eq_true.mp checked word found
  rw [same] at plain
  simp at plain

/-- A text without the first letter of index variables has none of them. -/
theorem bound_of_not_mem {text : String} (absent : 'd' ∉ text.toList) :
    indexFrame.Fits (IsBound scope) text := by
  rintro word found level rfl
  have first : 'd' ∈ ("dx" ++ toString level).toList := by simp
  exact absurd ((Frame.infix_of_mem_words found).subset first) absent

/-- Fixed words that leave no frame open. -/
theorem settled_ofList {chars : List Char}
    (checked : ((indexFrame.words chars).all (·.head? != some 'd') &&
      !indexFrame.leavesOpen chars) = true) :
    indexFrame.Settled (IsBound scope) (String.ofList chars) := by
  obtain ⟨plain, shut⟩ := Bool.and_eq_true_iff.mp checked
  refine ⟨bound_ofList plain, ?_⟩
  rw [String.toList_ofList]
  exact (Bool.not_eq_true' _).mp shut

/-- Fixed words that neither leave a frame open nor close one first. -/
theorem anchored_ofList {chars : List Char}
    (checked : ((indexFrame.words chars).all (·.head? != some 'd') &&
      !indexFrame.leavesOpen chars && !indexFrame.closesFirst chars &&
      !chars.all indexFrame.inner) = true) :
    indexFrame.Anchored (IsBound scope) (String.ofList chars) := by
  obtain ⟨rest, mixed⟩ := Bool.and_eq_true_iff.mp checked
  obtain ⟨settled, unclosed⟩ := Bool.and_eq_true_iff.mp rest
  refine ⟨settled_ofList settled, ⟨?_, ?_⟩⟩
  · rw [String.toList_ofList]
    exact (Bool.not_eq_true' _).mp unclosed
  · rw [String.toList_ofList]
    exact Bool.eq_false_iff.mp ((Bool.not_eq_true' _).mp mixed)

/-- The characters around index variables. -/
def indexMarks : List Char := ['(', '\x7b', ' ', ')', '\x7d', ',']

/-- A text that has none of the characters around index variables. -/
theorem skips_of_not_mem {text : String} (absent : ∀ c ∈ indexMarks, c ∉ text.toList) :
    indexFrame.Skips text := by
  intro c member
  refine ⟨Bool.eq_false_iff.mpr fun opens => ?_, Bool.eq_false_iff.mpr fun closes => ?_⟩
  · refine absent c ?_ member
    simp only [indexFrame, Bool.or_eq_true, beq_iff_eq] at opens
    rcases opens with (rfl | rfl) | rfl <;> simp [indexMarks]
  · refine absent c ?_ member
    simp only [indexFrame, Bool.or_eq_true, beq_iff_eq] at closes
    rcases closes with (rfl | rfl) | rfl <;> simp [indexMarks]

/-- What all characters of a text have, and none of the marks around an index, keeps the marks out.
-/
theorem skips_of_forall {text : String} {holds : Char → Prop} [DecidablePred holds]
    (chars : ∀ c ∈ text.toList, holds c) (outside : indexMarks.all (¬ holds ·) = true) :
    indexFrame.Skips text :=
  skips_of_not_mem fun c listed member =>
    List.all_iff_forall_prop.mp outside c listed (chars c member)

/-- Dotted names have none of the marks around an index. -/
theorem skips_dotted {name : String} (dotted : Source.Dotted name) : indexFrame.Skips name :=
  skips_of_forall dotted (by decide)

/-- Neither have numerals of the library. -/
theorem skips_toString (n : Nat) : indexFrame.Skips (toString n) :=
  skips_of_forall (fun _ member => isDigit_of_mem_toString member) (by decide)

private theorem skips_write {value : Int} {text : String}
    (written : Numeral.write value = .ok text) :
    indexFrame.Skips text :=
  skips_of_forall (fun _ member => isDigit_or_sign_of_write written member) (by decide)

private theorem outside_of_mem_indexMarks :
    ∀ c ∈ indexMarks, Source.isNamePart c = false ∧ c.isAlphanum = false :=
  List.all_iff_forall_prop.mp (by decide)

/-- Neither have the names of functions. -/
theorem skips_matlabName {name : String} (dotted : Source.Dotted name) :
    indexFrame.Skips (matlabName name) := by
  refine skips_of_not_mem fun c listed => ?_
  obtain ⟨outside, symbol⟩ := outside_of_mem_indexMarks c listed
  exact not_mem_matlabName symbol (not_mem_flatName dotted outside)

private theorem skips_matlabElementName {type : FieldType}
    (dotted : ∀ name, type = .compound name → Source.Dotted name) :
    indexFrame.Skips (matlabName type.name) := by
  refine skips_of_not_mem fun c listed => ?_
  obtain ⟨outside, symbol⟩ := outside_of_mem_indexMarks c listed
  exact not_mem_matlabElementName dotted outside symbol

private theorem skips_storageClass (p : Primitive) : indexFrame.Skips (storageClass p) :=
  skips_of_forall (fun _ member => isAlphanum_of_mem_storageClass member) (by decide)

private theorem isBound_index {level : Nat} (bound : ∃ header ∈ scope, OpensLoop level header) :
    IsBound scope ("dx" ++ toString level).toList := by
  intro other same
  rw [String.toList_append, String.toList_append] at same
  have digits : toString level = toString other :=
    String.toList_inj.mp (List.append_cancel_left same)
  rwa [← Nat.repr_inj.mp digits]

private theorem not_opens_of_closes {c : Char} (closes : indexFrame.closes c = true) :
    indexFrame.opens c = false := by
  simp only [indexFrame, Bool.or_eq_true, beq_iff_eq] at closes
  rcases closes with (rfl | rfl) | rfl <;> rfl

private theorem words_index (level : Nat) {o c : Char} (opens : indexFrame.opens o = true)
    (closes : indexFrame.closes c = true) (rest : List Char) :
    indexFrame.words (o :: (("dx" ++ toString level).toList ++ c :: rest)) =
      ("dx" ++ toString level).toList :: indexFrame.words rest :=
  Frame.words_cons_append_cons opens (fun _ => inner_of_mem_index) closes
    (not_opens_of_closes closes) rest

/-- Index variables in brackets are those of their levels. -/
theorem bound_indices {levels : List Nat}
    (bound : ∀ level ∈ levels, ∃ header ∈ scope, OpensLoop level header) {o c : Char}
    (opens : indexFrame.opens o = true) (closes : indexFrame.closes c = true) :
    ∀ word ∈ indexFrame.words (o :: ((String.intercalate ", "
      (levels.map fun level => "dx" ++ toString level)).toList ++ [c])), IsBound scope word := by
  induction levels generalizing o with
  | nil =>
      have empty : indexFrame.words (o :: ([] ++ [c])) = [[]] :=
        Frame.words_cons_append_cons opens (List.forall_mem_nil _) closes
          (not_opens_of_closes closes) []
      intro word found level same
      rw [List.map_nil, String.intercalate_nil, String.toList_empty, empty] at found
      obtain rfl := List.mem_singleton.mp found
      simp at same
  | cons level levels ih =>
      obtain ⟨here, later⟩ := List.forall_mem_cons.mp bound
      cases levels with
      | nil =>
          intro word found
          rw [List.map_singleton, String.intercalate_singleton,
            words_index level opens closes] at found
          obtain rfl := List.mem_singleton.mp found
          exact isBound_index here
      | cons next levels =>
          have shape : (String.intercalate ", "
              ((level :: next :: levels).map fun level => "dx" ++ toString level)).toList ++ [c] =
              ("dx" ++ toString level).toList ++ ',' :: (' ' :: ((String.intercalate ", "
                ((next :: levels).map fun level => "dx" ++ toString level)).toList ++ [c])) := by
            rw [List.map_cons, List.map_cons, String.intercalate_cons_cons]
            simp
          rw [shape, words_index level opens rfl]
          exact List.forall_mem_cons.mpr ⟨isBound_index here, ih later rfl⟩

/-- The index variables of an element in brackets. -/
theorem settled_indices {depth : Nat}
    (bound : ∀ level < depth, ∃ header ∈ scope, OpensLoop level header) {before behind : String}
    {o c : Char} (starts : before.toList = [o]) (ends : behind.toList = [c])
    (opens : indexFrame.opens o = true) (closes : indexFrame.closes c = true) :
    indexFrame.Settled (IsBound scope) (before ++ (String.intercalate ", "
      ((List.range depth).map fun level => "dx" ++ toString level) ++ behind)) := by
  have levels : ∀ level ∈ List.range depth, ∃ header ∈ scope, OpensLoop level header :=
    fun level listed => bound level (List.mem_range.mp listed)
  constructor
  · intro word found
    rw [String.toList_append, String.toList_append, starts, ends, List.singleton_append] at found
    exact bound_indices levels opens closes word found
  · have mixed : ¬ [c].all indexFrame.inner = true := by
      simpa using indexFrame.stops c closes
    rw [String.toList_append, String.toList_append, ends, ← List.append_assoc,
      Frame.leavesOpen_append, if_neg mixed, Frame.leavesOpen]
    simpa using not_opens_of_closes closes

private theorem anchored_matlabElement {owner : String}
    (outer : indexFrame.Anchored (IsBound scope) owner)
    {member : Member} (name : Source.Dotted member.name) {depth : Nat}
    (bound : ∀ level < depth, ∃ header ∈ scope, OpensLoop level header) :
    indexFrame.Anchored (IsBound scope) (matlabElement owner member depth) := by
  have field : indexFrame.Anchored (IsBound scope) (owner ++ "." ++ member.name) :=
    (outer.append (settled_ofList rfl)).append (skips_dotted name).settled
  unfold matlabElement
  dsimp only
  split
  · exact field
  · split
    · rw [String.append_assoc, String.append_assoc]
      exact field.append (settled_indices bound rfl rfl rfl rfl)
    · rw [String.append_assoc, String.append_assoc]
      exact field.append (settled_indices bound rfl rfl rfl rfl)

/-- The first values of scalars are anchored. -/
theorem anchored_matlabScalar {type : FieldType}
    (dotted : ∀ name, type = .compound name → Source.Dotted name) :
    indexFrame.Anchored (IsBound scope) (matlabScalar type) := by
  unfold matlabScalar
  split
  · exact anchored_ofList rfl
  · next p _ => exact (skips_storageClass p).anchor (anchored_ofList rfl)
  · next name => exact (skips_matlabName (dotted name rfl)).anchor (anchored_ofList rfl)

/-- An extent fits any line. -/
theorem bound_matlabExtent {owner text : String}
    (outer : indexFrame.Settled (IsBound scope) owner) {dimension : Dimension}
    (read : dimension.Written) (written : matlabExtent owner dimension = .ok text) :
    indexFrame.Fits (IsBound scope) text := by
  -- both backends spell extents in the same way
  rcases extentText_cases written with ⟨-, value, -, numeral⟩ | ⟨dynamic, rfl⟩
  · exact (skips_write numeral).settled.fits
  · have size := skips_dotted (read.dotted dynamic)
    exact (outer.append (settled_ofList rfl)).then size.settled.fits

end Parts

/-! ### Lines -/

namespace Balanced

variable {scope : List String} {rest : List Line}

/-- Whether a line that starts in this way is flush, and neither opens nor closes a block. -/
def leads (chars : List Char) : Bool := chars.head?.any (!isBlank ·) && differs chars

/-- A line that starts with checked characters may stand before balanced lines. -/
theorem text {chars : List Char} {text : String} (checked : leads chars = true)
    (starts : chars <+: text.toList) (bound : indexFrame.Fits (IsBound scope) text)
    (later : Balanced scope rest) : Balanced scope (plain text :: rest) := by
  obtain ⟨solid, apart⟩ := Bool.and_eq_true_iff.mp checked
  have flush := flush_of_starts solid starts
  have neutral := IsNeutral.of_prefix flush apart starts
  exact .line ⟨flush, bound⟩ neutral.opens neutral.closes later

/-- A line of fixed words. -/
theorem fixed {chars : List Char}
    (checked : (leads chars && (indexFrame.words chars).all (·.head? != some 'd')) = true)
    (later : Balanced scope rest) : Balanced scope (plain (String.ofList chars) :: rest) := by
  obtain ⟨led, plain⟩ := Bool.and_eq_true_iff.mp checked
  exact .text led (prefix_ofList chars) (bound_ofList plain) later

/-- So may a blank line. -/
theorem blank (later : Balanced scope rest) : Balanced scope (Line.blank :: rest) := by
  have bound : indexFrame.Fits (IsBound scope) "" := fun _ found => nomatch found
  exact .line ⟨nofun, bound⟩ (by decide) (by decide) later

/-- A condition over a body. -/
theorem conditional {condition : String} {c : Char} {body : List Line}
    (starts : condition.toList.head? = some c) (solid : isBlank c = false)
    (bound : indexFrame.Fits (IsBound scope) ("if " ++ condition))
    (inside : Balanced (("if " ++ condition) :: scope) body) :
    Balanced scope (conditional condition body) := by
  have word : "if ".toList ++ [c] <+: ("if " ++ condition).toList := by
    obtain ⟨tail, shape⟩ := List.head?_eq_some_iff.mp starts
    rw [String.toList_append, shape, List.prefix_append_right_inj]
    exact List.prefix_append [c] tail
  have opened : "if ".toList <+: ("if " ++ condition).toList :=
    prefix_append (prefix_ofList _) condition
  have flush := flush_of_starts (by decide) opened
  exact .closedBlock ⟨flush, bound⟩ (isOpener_of_starts (by simp) solid word) inside

private theorem returns : Balanced scope [plain "return;"] := .fixed (by decide) .nil

/-- The check of the position. -/
theorem positionCheck : Balanced scope (Backend.conditional "pos < 1" [plain "return;"]) :=
  .conditional (head_ofList _ _) (by decide)
    ((bound_ofList rfl).append (bound_ofList rfl) rfl) returns

private theorem lengthChecks {member : Member}
    (read : ∀ dimension ∈ member.dimensions, dimension.Written) :
    Balanced scope (matlabLengthChecks (.ofMember member)) := by
  refine .flatten fun lines present => ?_
  obtain ⟨length, listed, rfl⟩ := List.mem_map.mp present
  have name := skips_dotted (dotted_of_mem_lengthMembers read listed)
  refine .conditional (head_append (head_append (head_ofList _ _) _) _) (by decide) ?_
    (.fixed (by decide) returns)
  rw [← String.append_assoc, ← String.append_assoc]
  exact (((bound_ofList rfl).anchor (anchored_ofList rfl)).name name).then (bound_ofList rfl)

/-! ### Steps -/

/-- Lines that are balanced below the loops of some levels are balanced in them. -/
theorem countedLoops {owner : String} (outer : ∀ scope, indexFrame.Settled (IsBound scope) owner)
    {body lines : List Line} {level : Nat} {dimensions : List Dimension}
    (read : ∀ dimension ∈ dimensions, dimension.Written)
    (around : ∀ below < level, ∃ header ∈ scope, OpensLoop below header)
    (inside : ∀ scope, (∀ below < level + dimensions.length,
      ∃ header ∈ scope, OpensLoop below header) → Balanced scope body)
    (written : Backend.countedLoops owner body level dimensions = .ok lines) :
    Balanced scope lines := by
  induction dimensions generalizing level lines scope with
  | nil =>
      obtain rfl := Outcome.pure_eq_ok.mp written
      exact inside scope around
  | cons dimension dimensions ih =>
      obtain ⟨here, later⟩ := List.forall_mem_cons.mp read
      obtain ⟨extent, inner, extentWritten, innerWritten, rfl⟩ := countedLoops_cons_eq_ok written
      let header := "for dx" ++ toString level ++ " = 1:" ++ extent
      have opened : "for dx".toList <+: header.toList :=
        prefix_append (prefix_append (prefix_append (prefix_ofList _) _) _) _
      have bound : indexFrame.Fits (IsBound scope) header :=
        (((bound_ofList rfl).name (skips_toString level)).anchor (anchored_ofList rfl)).then
          (bound_matlabExtent (outer scope) here extentWritten)
      have own : OpensLoop level header := prefix_append (List.prefix_rfl) _
      have flush := flush_of_starts (by decide) opened
      have word : "for ".toList ++ ['d'] <+: header.toList :=
        (List.prefix_append ("for ".toList ++ ['d']) ['x']).trans opened
      refine .closedBlock ⟨flush, bound⟩
        (isOpener_of_starts (by simp) (by decide) word) (ih later ?_ ?_ innerWritten)
      · intro below under
        rcases Nat.lt_succ_iff_lt_or_eq.mp under with outside | rfl
        · obtain ⟨other, listed, opens⟩ := around below outside
          exact ⟨other, List.mem_cons_of_mem _ listed, opens⟩
        · exact ⟨header, List.mem_cons_self, own⟩
      · intro scope open_
        refine inside scope fun below under => open_ below ?_
        rw [List.length_cons] at under
        omega

/-- Loops over a body whose index variables are those of the loops. -/
theorem loopsOver {owner : String} (outer : ∀ scope, indexFrame.Settled (IsBound scope) owner)
    {body lines : List Line} {dimensions : List Dimension}
    (read : ∀ dimension ∈ dimensions, dimension.Written)
    (inside : ∀ scope, (∀ level < dimensions.length, ∃ header ∈ scope, OpensLoop level header) →
      Balanced scope body)
    (written : Backend.countedLoops owner body 0 dimensions = .ok lines) :
    Balanced scope lines := by
  refine countedLoops outer read (fun _ none => absurd none (Nat.not_lt_zero _)) ?_ written
  intro scope opened
  rw [Nat.zero_add] at opened
  exact inside scope opened

/-- A call for values of a type, with one argument that varies. -/
theorem call {before middle : List Char} {argument : String} {type : FieldType}
    (checked : leads before = true)
    (bound : indexFrame.Fits (IsBound scope) (String.ofList before))
    (dotted : ∀ name, type = .compound name → Source.Dotted name)
    (continued : indexFrame.Fits (IsBound scope) (String.ofList middle))
    (unclosed : indexFrame.closesFirst (String.ofList middle).toList = false)
    (anchored : indexFrame.Anchored (IsBound scope) argument) (later : Balanced scope rest) :
    Balanced scope (plain (String.ofList before ++ matlabName type.name ++ String.ofList middle ++
      argument ++ ", 1);") :: rest) := by
  refine .text checked ?_ ?_ later
  · exact prefix_append (prefix_append (prefix_append (prefix_append (prefix_ofList _) _) _) _) _
  · have opened := (bound.name (skips_matlabElementName dotted)).append continued unclosed
    exact (opened.anchor anchored).then (bound_ofList rfl)

/-- A value is put into an element. -/
theorem assignment {member : Member} {depth : Nat} {value : String}
    (element : indexFrame.Anchored (IsBound scope) (matlabElement "S(ix)" member depth))
    (fits : indexFrame.Fits (IsBound scope) value)
    (unclosed : indexFrame.closesFirst value.toList = false) :
    Balanced scope [plain (matlabElement "S(ix)" member depth ++ " = " ++ value ++ ";")] := by
  have bound : indexFrame.Fits (IsBound scope)
      (matlabElement "S(ix)" member depth ++ " = " ++ value ++ ";") :=
    ((element.toSettled.then (bound_ofList rfl)).append fits unclosed).append (bound_ofList rfl)
      rfl
  obtain ⟨tail, shape⟩ := List.head?_eq_some_iff.mp
    (head_append (head_append (head_matlabElement member depth " = ") value) ";")
  have starts : ['S'] <+: (matlabElement "S(ix)" member depth ++ " = " ++ value ++ ";").toList :=
    ⟨tail, shape.symm⟩
  exact .text (by decide) starts bound .nil

/-- What encodes a member is balanced. -/
theorem encodeStep {member : Member} (read : member.ReadFrom Source.Dotted) {lines : List Line}
    (written : matlabEncodeStep (.ofMember member) = .ok lines) : Balanced scope lines := by
  obtain ⟨loops, loopsWritten, rfl⟩ := Outcome.returning_eq_ok.mp written
  refine (lengthChecks read.dimensions).append
    (loopsOver (fun _ => settled_ofList rfl) read.dimensions ?_ loopsWritten)
  intro scope opened
  have owner : indexFrame.Anchored (IsBound scope) "S(ix)" := anchored_ofList rfl
  have element := anchored_matlabElement owner read.name opened
  exact call (by decide) (bound_ofList rfl) read.type (bound_ofList rfl) rfl element
    positionCheck

/-- What decodes a member is balanced. -/
theorem decodeStep {member : Member} (read : member.ReadFrom Source.Dotted) {lines : List Line}
    (written : matlabDecodeStep (.ofMember member) = .ok lines) : Balanced scope lines := by
  obtain ⟨loops, loopsWritten, rfl⟩ := Outcome.returning_eq_ok.mp written
  refine (lengthChecks read.dimensions).append
    (loopsOver (fun _ => settled_ofList rfl) read.dimensions ?_ loopsWritten)
  intro scope opened
  have owner : indexFrame.Anchored (IsBound scope) "S(ix)" := anchored_ofList rfl
  have element := anchored_matlabElement owner read.name opened
  have received : Balanced scope [plain (matlabElement "S(ix)" member member.dimensions.length ++
      " = " ++ (if member.type = .primitive .string then "t" else "t(1)") ++ ";")] := by
    split
    · exact assignment element (bound_ofList rfl) rfl
    · exact assignment element (bound_ofList rfl) rfl
  exact append (call (by decide) (bound_ofList rfl) read.type (bound_ofList rfl) rfl
    (anchored_matlabScalar read.type) positionCheck) received

/-- What adds the size of a member is balanced. -/
theorem sizeStep {member : Member} (read : member.ReadFrom Source.Dotted) {term : SizeTerm}
    (found : SizeTerm.ofMember member = .ok term) {lines : List Line}
    (written : matlabSizeStep term = .ok lines) : Balanced scope lines := by
  rcases SizeTerm.ofMember_eq_ok found with ⟨width, extents, -, -, -, rfl⟩ | ⟨rfl, -⟩
  · obtain rfl := Outcome.pure_eq_ok.mp written
    exact .nil
  · refine loopsOver (fun _ => settled_ofList rfl) read.dimensions ?_ written
    intro scope opened
    have owner : indexFrame.Anchored (IsBound scope) "S" := anchored_ofList rfl
    have element := anchored_matlabElement owner read.name opened
    have starts (added : String) : "s = s + ".toList <+: ("s = s + " ++ added ++ ";").toList :=
      prefix_append (prefix_append (prefix_ofList _) _) _
    refine .text (by decide) (starts _) (Frame.Fits.append ?_ (bound_ofList rfl) rfl) .nil
    split
    · next bytes _ => exact Frame.Fits.name (bound_ofList rfl) (skips_toString bytes)
    · rw [← String.append_assoc, ← String.append_assoc, ← String.append_assoc]
      exact (Frame.Fits.name (bound_ofList rfl) (skips_matlabElementName read.type)
        |>.append (bound_ofList rfl) rfl |>.anchor element).then (bound_ofList rfl)

end Balanced

end Wireform.Backend
