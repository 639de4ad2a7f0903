import Mathlib.Data.List.Forall2
import Wireform.Proofs.Backend.Fields
import Wireform.Proofs.Backend.PythonText
import Wireform.Proofs.Schema.Validity

/-! # Lengths are read before they are used

A decoder reads the members of a struct in turn, and the loops of a member run as often as earlier
members say. In the code of a decoder an earlier member is a field of the value under construction,
which holds zero until the member has been read, so nothing but the order of the lines keeps a
decoder from looping over the wrong number of elements.

The rule for the code is stated over its lines (`Wireform.Backend.Wording.LengthsFirst`), for any
wording of the lines that matter. Code that puts one step for each member after the other obeys it
(`Wireform.Backend.Wording.lengthsFirst_of_steps`), if the step of a member opens its blocks on the
member's own lengths only, and assigns to the member only, last of all where it may be a length.
Steps that start with the tests of their lengths are of this kind
(`Wireform.Backend.Wording.isStep_of_guards`).
-/

namespace Wireform.Backend

/-! ### Lines among lines -/

/-- The lines `levels` deeper. -/
def sunk (levels : Nat) (lines : List Line) : List Line :=
  lines.map fun line => { line with depth := line.depth + levels }

private theorem mem_sunk {levels : Nat} {lines : List Line} {line : Line}
    (member : line ∈ sunk levels lines) :
    ∃ shallow ∈ lines, shallow.text = line.text ∧ levels ≤ line.depth := by
  obtain ⟨shallow, listed, rfl⟩ := List.mem_map.mp member
  exact ⟨shallow, listed, rfl, Nat.le_add_left _ _⟩

private theorem sunk_append (levels : Nat) (first second : List Line) :
    sunk levels (first ++ second) = sunk levels first ++ sunk levels second :=
  List.map_append

/-- Deeper lines are one level deeper. -/
theorem deeper_eq_sunk (lines : List Line) : deeper lines = sunk 1 lines := rfl

/-- Levels add up. -/
theorem sunk_sunk (outer inner : Nat) (lines : List Line) :
    sunk outer (sunk inner lines) = sunk (inner + outer) lines := by
  simp [sunk, Nat.add_assoc]

private theorem forall₂_append_cons {α β : Type} {relation : α → β → Prop} {left : List α}
    {before after : List β} {entry : β}
    (related : List.Forall₂ relation left (before ++ entry :: after)) :
    ∃ first own rest, left = first ++ own :: rest ∧ List.Forall₂ relation first before ∧
      relation own entry ∧ List.Forall₂ relation rest after := by
  induction before generalizing left with
  | nil =>
      obtain ⟨own, rest, holds, others, rfl⟩ := List.forall₂_cons_right_iff.mp related
      exact ⟨[], own, rest, rfl, .nil, holds, others⟩
  | cons head before ih =>
      obtain ⟨other, tail, holds, others, rfl⟩ := List.forall₂_cons_right_iff.mp related
      obtain ⟨first, own, rest, rfl, firsts, here, rests⟩ := ih others
      exact ⟨other :: first, own, rest, rfl, .cons holds firsts, here, rests⟩

/-- A line among steps is in one of them. -/
theorem split_steps {levels : Nat} {steps : List (List Line)} {closing before after : List Line}
    {line : Line} (whole : sunk levels steps.flatten ++ closing = before ++ line :: after) :
    line ∈ closing ∨ ∃ earlier step later front back, steps = earlier ++ step :: later ∧
      before = sunk levels earlier.flatten ++ front ∧ sunk levels step = front ++ line :: back ∧
      after = back ++ sunk levels later.flatten ++ closing := by
  induction steps generalizing before with
  | nil =>
      have inside : closing = before ++ line :: after := whole
      exact .inl (inside ▸ List.mem_append_right _ List.mem_cons_self)
  | cons step steps ih =>
      rw [List.flatten_cons, sunk_append, List.append_assoc] at whole
      rcases split_append whole with ⟨back, here, rfl⟩ | ⟨front, rfl, later⟩
      · exact .inr ⟨[], step, steps, before, back, rfl, rfl, here, by rw [List.append_assoc]⟩
      · rcases ih later with inside | ⟨earlier, own, others, front, back, rfl, rfl, here, rfl⟩
        · exact .inl inside
        · refine .inr ⟨step :: earlier, own, others, front, back, rfl, ?_, here, rfl⟩
          rw [List.flatten_cons, sunk_append, List.append_assoc]

/-- Lines none of which is empty are all kept. -/
theorem occupied_eq_self {lines : List Line} (written : ∀ line ∈ lines, line.text ≠ "") :
    occupied lines = lines := by
  apply List.filter_eq_self.mpr
  intro line inside
  simpa using written line inside

/-! ### Wordings -/

/-- How a decoder words the lines that matter for its lengths. -/
structure Wording (Element : Type) where
  /-- The value under construction. -/
  owner : String
  /-- The depth of the steps for the members. -/
  depth : Nat
  /-- The line that puts the value of a number into its field. -/
  stored : String → String
  /-- The line that tests a field for being negative. -/
  test : String → String
  /-- The lines of a step that belong to the test. -/
  refusal : List Line
  read : String → Option (Mark Element)
  element : FieldType → Element

namespace Wording

variable {Element : Type} (w : Wording Element)

/-- A line that opens the loop of a dimension. -/
def IsLoop (line : Line) : Prop := ∃ counter extent, w.read line.text = some (.loop counter extent)

/-- A line inside the loop of a dimension: all lines from the header of the loop on stand deeper
than the header. -/
def Inside (before : List Line) (line : Line) : Prop :=
  ∃ first header rest, before = first ++ header :: rest ∧ w.IsLoop header ∧
    ∀ later ∈ rest ++ [line], header.depth < later.depth

/-- The lines that refuse a negative length. -/
def guard (length : String) : List Line := plain (w.test length) :: w.refusal

/-- A step that follows the outline of its member and tests each dynamic extent of the member for
being negative before its first loop, and once only. -/
structure TestsFirst (member : Member) (step : List Line) : Prop where
  outline : ∃ outline, member.outline = .ok outline ∧
    skeleton w.read step = outline.map (SkeletonLine.translate 0 w.element)
  tested : ∀ dimension ∈ member.dimensions, dimension.isConstant = false →
    ∃ before after, step = before ++ w.guard dimension.size ++ after ∧
      (∀ line ∈ before, ¬ w.IsLoop line) ∧
      ∀ line ∈ before ++ w.refusal ++ after, line.text ≠ w.test dimension.size

/-- Lines of a decoder in which every block that opens on a field comes after the line that put a
number into the field. The line stands in no loop of a dimension and is the last to assign to the
field, and the field is that of a member of an integer type without dimensions. The lines are made
of one step for each member, and each step tests the lengths of its member before it loops. -/
structure LengthsFirst (struct : Struct) (lines : List Line) : Prop where
  stored : ∀ before header after name, lines = before ++ header :: after →
    OpensBlock header.text → Mentions w.owner name header.text →
    ∃ first rest, before = first ++ ⟨w.depth, w.stored name⟩ :: rest ∧
      ¬ w.Inside first ⟨w.depth, w.stored name⟩ ∧
      (∃ member ∈ struct.members, member.name = name ∧ member.dimensions = [] ∧
        member.type.isInteger = true) ∧
      ∀ line ∈ rest ++ header :: after, ¬ Assigns w.owner name line.text
  tested : ∃ opening steps closing, lines = opening ++ sunk w.depth steps.flatten ++ closing ∧
    (∀ line ∈ opening ++ closing, ¬ w.IsLoop line) ∧
    List.Forall₂ w.TestsFirst struct.members steps

/-! ### Steps -/

/-- What a line may do in the step of a member. -/
structure Fits (member : Member) (text : String) : Prop where
  written : text ≠ ""
  reads : OpensBlock text → ∀ name, Mentions w.owner name text →
    ∃ dimension ∈ member.dimensions, dimension.isConstant = false ∧ dimension.size = name
  assigns : ∀ name, Assigns w.owner name text → name = member.name

/-- A step whose lines do what they may, which tests its lengths first and puts the value of a
number into its field at its end. -/
structure IsStep (member : Member) (step : List Line) : Prop extends w.TestsFirst member step where
  fits : ∀ line ∈ step, w.Fits member line.text
  stored : member.dimensions = [] → member.type.isInteger = true →
    ∃ before, step = before ++ [plain (w.stored member.name)]

/-- A line around the steps. -/
structure Around (text : String) : Prop where
  unmarked : ∀ counter extent, w.read text ≠ some (.loop counter extent)
  reads : OpensBlock text → ∀ name, ¬ Mentions w.owner name text
  assigns : ∀ name, ¬ Assigns w.owner name text

variable {w} {member : Member}

/-- A line without dots may stand in any step. -/
theorem Fits.of_undotted {text : String} (written : text ≠ "") (undotted : '.' ∉ text.toList) :
    w.Fits member text where
  written := written
  reads := fun _ _ mentioned => absurd mentioned (not_mentions_of_undotted undotted)
  assigns := fun _ assigned => absurd assigned.mentions (not_mentions_of_undotted undotted)

/-- A line that opens a block on one of the member's lengths. -/
theorem Fits.of_length {text : String} {dimension : Dimension} {front rest : List Char}
    (listed : dimension ∈ member.dimensions) (dynamic : dimension.isConstant = false)
    (undotted : Undotted dimension.size)
    (shape : text.toList = front ++ '.' :: (dimension.size.toList ++ rest))
    (frontPlain : '.' ∉ front)
    (restPlain : '.' ∉ rest ∧ '=' ∉ rest ∧ ¬ " in ".toList <:+: rest)
    (ends : ∀ c ∈ rest.head?, isPlainPart c = false) : w.Fits member text where
  written := by
    rintro rfl
    simp at shape
  reads := fun _ name ⟨after, mentioned⟩ =>
    ⟨dimension, listed, dynamic,
      (mentioned.eq_of_field undotted shape frontPlain restPlain.1 ends).1.symm⟩
  assigns := by
    rintro name ⟨after, mentioned, assigned⟩
    obtain ⟨-, rfl⟩ := mentioned.eq_of_field undotted shape frontPlain restPlain.1 ends
    rcases assigned with equals | ⟨-, within⟩
    · exact absurd equals restPlain.2.1
    · exact absurd within restPlain.2.2

/-- A line that assigns to the member. -/
theorem Fits.of_target {text : String} {front rest : List Char} (undotted : Undotted member.name)
    (flat : ¬ OpensBlock text) (shape : text.toList = front ++ '.' :: (member.name.toList ++ rest))
    (frontPlain : '.' ∉ front) (restPlain : '.' ∉ rest)
    (ends : ∀ c ∈ rest.head?, isPlainPart c = false) : w.Fits member text where
  written := by
    rintro rfl
    simp at shape
  reads := fun opens => absurd opens flat
  assigns := fun _ ⟨_, mentioned, _⟩ =>
    (mentioned.eq_of_field undotted shape frontPlain restPlain ends).1

/-- A line that opens no block and has no equals sign after its dot. -/
theorem Fits.of_flat {text : String} (flat : ¬ OpensBlock text) {front tail : List Char}
    (shape : text.toList = front ++ '.' :: tail) (frontPlain : '.' ∉ front)
    (tailPlain : '.' ∉ tail ∧ '=' ∉ tail) : w.Fits member text where
  written := by
    rintro rfl
    simp at shape
  reads := fun opens => absurd opens flat
  assigns := fun _ assigned =>
    absurd assigned (not_assigns_of_flat flat shape frontPlain tailPlain)

/-- A line without dots may stand around the steps. -/
theorem Around.of_undotted {text : String} (unmarked : w.read text = none)
    (undotted : '.' ∉ text.toList) : w.Around text where
  unmarked := fun _ _ marked => absurd (unmarked.symm.trans marked) nofun
  reads := fun _ _ => not_mentions_of_undotted undotted
  assigns := fun _ assigned => not_mentions_of_undotted undotted assigned.mentions

/-- So may a line that opens no block and has no equals sign. -/
theorem Around.of_flat {text : String} (unmarked : w.read text = none) (flat : ¬ OpensBlock text)
    (plain : '=' ∉ text.toList) : w.Around text where
  unmarked := fun _ _ marked => absurd (unmarked.symm.trans marked) nofun
  reads := fun opens => absurd opens flat
  assigns := fun _ => not_assigns_of_no_equals flat plain

/-! ### Tests of lengths -/

/-- A wording whose tests are conditions on one field, and whose other lines of a test name none. -/
structure IsRegular (w : Wording Element) : Prop where
  shape : ∃ before rest, (∀ name, (w.test name).toList =
      (before ++ w.owner.toList) ++ '.' :: (name.toList ++ rest)) ∧
    '.' ∉ before ++ w.owner.toList ∧ ('.' ∉ rest ∧ '=' ∉ rest ∧ ¬ " in ".toList <:+: rest) ∧
    ∀ c ∈ rest.head?, isPlainPart c = false
  opens : ∀ name, "if ".toList <+: (w.test name).toList
  unmarked : ∀ name counter extent, w.read (w.test name) ≠ some (.loop counter extent)
  refusal : ∀ line ∈ w.refusal, line.text ≠ "" ∧ '.' ∉ line.text.toList ∧ ¬ w.IsLoop line

private theorem IsRegular.test_injective (regular : w.IsRegular) : Function.Injective w.test := by
  obtain ⟨before, rest, shape, -⟩ := regular.shape
  intro first second same
  have chars := congrArg String.toList same
  rw [shape, shape] at chars
  exact String.toList_inj.mp
    (List.append_cancel_right (List.cons.inj (List.append_cancel_left chars)).2)

private theorem IsRegular.ne_test_of_undotted (regular : w.IsRegular) {text : String}
    (undotted : '.' ∉ text.toList) (name : String) : text ≠ w.test name := by
  obtain ⟨before, rest, shape, -⟩ := regular.shape
  rintro rfl
  rw [shape] at undotted
  exact undotted (List.mem_append_right _ List.mem_cons_self)

/-- Where a line begins tells that it is no test. -/
theorem IsRegular.ne_test_of_head (regular : w.IsRegular) {text : String} {c : Char}
    (starts : text.toList.head? = some c) (other : c ≠ 'i') (name : String) :
    text ≠ w.test name := by
  rintro rfl
  obtain ⟨rest, opens⟩ := regular.opens name
  rw [← opens] at starts
  exact other (Option.some.inj starts).symm

/-- What a line may do after the tests of a step. -/
structure Acts (w : Wording Element) (member : Member) (text : String) : Prop
    extends w.Fits member text where
  untested : ∀ name, text ≠ w.test name

/-- A line without dots may stand after any tests. -/
theorem Acts.of_undotted (regular : w.IsRegular) {text : String} (written : text ≠ "")
    (undotted : '.' ∉ text.toList) : w.Acts member text where
  toFits := .of_undotted written undotted
  untested := regular.ne_test_of_undotted undotted

/-- A line that opens a loop over one of the member's dimensions. -/
theorem Acts.of_loop (regular : w.IsRegular) {dimension : Dimension}
    (listed : dimension ∈ member.dimensions)
    (undotted : dimension.isConstant = false → Undotted dimension.size) {extent : Extent}
    (found : Extent.ofDimension dimension = .ok extent) {opening closing : String}
    (opens : opening.toList.head? = some 'f') (openingPlain : '.' ∉ (opening ++ w.owner).toList)
    (closingPlain : '.' ∉ closing.toList ∧ '=' ∉ closing.toList ∧
      ¬ " in ".toList <:+: closing.toList)
    (ends : ∀ c ∈ closing.toList.head?, isPlainPart c = false) :
    w.Acts member (opening ++ extent.text w.owner ++ closing) := by
  have starts := head_append (head_append opens (extent.text w.owner)) closing
  refine ⟨?_, regular.ne_test_of_head starts (by decide)⟩
  rcases Extent.ofDimension_eq_ok found with ⟨value, digits, numeral, rfl⟩ | ⟨dynamic, rfl⟩
  · have numeralPlain := not_mem_write_dot numeral
    rw [String.toList_append, List.mem_append, not_or] at openingPlain
    refine .of_undotted ?_ ?_
    · intro empty
      rw [empty] at starts
      cases starts
    · simp [Extent.text, openingPlain.1, numeralPlain, closingPlain.1]
  · have shape : (opening ++ (Extent.length dimension.size).text w.owner ++ closing).toList =
        (opening ++ w.owner).toList ++ '.' :: (dimension.size.toList ++ closing.toList) := by
      simp [Extent.text]
    exact .of_length listed dynamic (undotted dynamic) shape openingPlain closingPlain ends

private theorem IsRegular.fits_test (regular : w.IsRegular) {dimension : Dimension}
    (listed : dimension ∈ member.dimensions) (dynamic : dimension.isConstant = false)
    (undotted : Undotted dimension.size) : w.Fits member (w.test dimension.size) := by
  obtain ⟨before, rest, shape, beforePlain, restPlain, ends⟩ := regular.shape
  exact .of_length listed dynamic undotted (shape _) beforePlain restPlain ends

private theorem IsRegular.mentions_test (regular : w.IsRegular) {name : String}
    (undotted : Undotted name) :
    Mentions w.owner name (w.test name) := by
  obtain ⟨before, rest, shape, -, -, ends⟩ := regular.shape
  exact ⟨rest, ⟨before, shape name⟩, undotted, ends⟩

private theorem mem_guards {names : List String} {line : Line}
    (inside : line ∈ names.flatMap w.guard) :
    (∃ name ∈ names, line = plain (w.test name)) ∨ line ∈ w.refusal := by
  obtain ⟨name, listed, within⟩ := List.mem_flatMap.mp inside
  rcases List.mem_cons.mp within with rfl | refused
  · exact .inl ⟨name, listed, rfl⟩
  · exact .inr refused

/-- The guards of other lengths do not test a length. -/
theorem IsRegular.ne_test_of_mem_guards (regular : w.IsRegular) {names : List String}
    {name : String} (absent : name ∉ names) :
    ∀ line ∈ names.flatMap w.guard, line.text ≠ w.test name := by
  intro line inside
  rcases mem_guards inside with ⟨other, named, rfl⟩ | refused
  · exact fun same => absent (regular.test_injective same ▸ named)
  · exact regular.ne_test_of_undotted (regular.refusal line refused).2.1 _

private theorem nodup_dynamicSizes {seen : List String} {dimensions : List Dimension}
    (distinct : seen.Nodup) : (FieldStep.dynamicSizes seen dimensions).Nodup := by
  induction dimensions generalizing seen with
  | nil => exact distinct
  | cons dimension dimensions ih =>
      unfold FieldStep.dynamicSizes
      split
      · exact ih distinct
      · next fresh =>
          rw [Bool.or_eq_true, not_or, List.contains_iff_mem] at fresh
          apply ih
          rw [List.nodup_append]
          refine ⟨distinct, List.nodup_singleton _, ?_⟩
          rintro name earlier _ last rfl
          exact fresh.2 (List.mem_singleton.mp last ▸ earlier)

private theorem mem_dynamicSizes_of_dynamic {seen : List String} {dimensions : List Dimension}
    {name : String} (among : name ∈ seen ∨
      ∃ dimension ∈ dimensions, dimension.isConstant = false ∧ dimension.size = name) :
    name ∈ FieldStep.dynamicSizes seen dimensions := by
  induction dimensions generalizing seen with
  | nil => exact among.resolve_right fun ⟨_, absent, _⟩ => absurd absent List.not_mem_nil
  | cons dimension dimensions ih =>
      unfold FieldStep.dynamicSizes
      split
      · next skipped =>
          apply ih
          rcases among with earlier | ⟨own, listed, dynamic, rfl⟩
          · exact .inl earlier
          · rcases List.mem_cons.mp listed with rfl | later
            · rw [dynamic, Bool.false_or, List.contains_iff_mem] at skipped
              exact .inl skipped
            · exact .inr ⟨own, later, dynamic, rfl⟩
      · apply ih
        rcases among with earlier | ⟨own, listed, dynamic, rfl⟩
        · exact .inl (List.mem_append_left _ earlier)
        · rcases List.mem_cons.mp listed with rfl | later
          · exact .inl (List.mem_append_right _ List.mem_cons_self)
          · exact .inr ⟨own, later, dynamic, rfl⟩

/-- **A step that starts with its tests.** Each length is among the tests once, and what follows the
tests does not test again. -/
theorem isStep_of_guards (regular : w.IsRegular)
    (undotted : ∀ dimension ∈ member.dimensions, dimension.isConstant = false →
      Undotted dimension.size) {moves : List Line}
    (acts : ∀ line ∈ moves, w.Acts member line.text)
    (outline : ∃ outline, member.outline = .ok outline ∧
      skeleton w.read ((FieldStep.ofMember member).lengthMembers.flatMap w.guard ++ moves) =
        outline.map (SkeletonLine.translate 0 w.element))
    (stored : member.dimensions = [] → member.type.isInteger = true →
      ∃ before, moves = before ++ [plain (w.stored member.name)]) :
    w.IsStep member ((FieldStep.ofMember member).lengthMembers.flatMap w.guard ++ moves) where
  outline := outline
  tested := by
    intro dimension listed dynamic
    have among : dimension.size ∈ (FieldStep.ofMember member).lengthMembers :=
      mem_dynamicSizes_of_dynamic (.inr ⟨dimension, listed, dynamic, rfl⟩)
    have once : (FieldStep.ofMember member).lengthMembers.Nodup := nodup_dynamicSizes List.nodup_nil
    obtain ⟨first, rest, shape⟩ := List.append_of_mem among
    rw [shape] at once ⊢
    obtain ⟨-, later, apart⟩ := List.nodup_append.mp once
    refine ⟨first.flatMap w.guard, rest.flatMap w.guard ++ moves, ?_, ?_, ?_⟩
    · rw [List.flatMap_append, List.flatMap_cons]
      simp only [List.append_assoc]
    · intro line inside
      rcases mem_guards inside with ⟨name, -, rfl⟩ | refused
      · rintro ⟨counter, extent, marked⟩
        exact regular.unmarked name counter extent marked
      · exact (regular.refusal line refused).2.2
    · have fresh : dimension.size ∉ first := fun again => apart _ again _ List.mem_cons_self rfl
      intro line inside
      simp only [List.mem_append] at inside
      rcases inside with (before | refused) | after | moved
      · exact regular.ne_test_of_mem_guards fresh line before
      · exact regular.ne_test_of_undotted (regular.refusal line refused).2.1 _
      · exact regular.ne_test_of_mem_guards (List.nodup_cons.mp later).1 line after
      · exact (acts line moved).untested _
  fits := by
    intro line inside
    rcases List.mem_append.mp inside with tests | moved
    · rcases mem_guards tests with ⟨name, named, rfl⟩ | refused
      · obtain ⟨dimension, listed, dynamic, rfl⟩ :=
          (mem_dynamicSizes named).resolve_left List.not_mem_nil
        exact regular.fits_test listed dynamic (undotted dimension listed dynamic)
      · obtain ⟨written, plain, -⟩ := regular.refusal line refused
        exact .of_undotted written plain
    · exact (acts line moved).toFits
  stored := by
    intro scalar integer
    obtain ⟨before, rfl⟩ := stored scalar integer
    exact ⟨_, (List.append_assoc _ _ _).symm⟩

/-! ### Steps in order -/

/-- Each line of some steps is in the step of one of the members. -/
theorem fits_of_mem_steps {members : List Member} {steps : List (List Line)}
    (facts : List.Forall₂ w.IsStep members steps) {levels : Nat} {line : Line}
    (inside : line ∈ sunk levels steps.flatten) : ∃ member ∈ members, w.Fits member line.text := by
  obtain ⟨shallow, listed, same, -⟩ := mem_sunk inside
  obtain ⟨step, present, within⟩ := List.mem_flatten.mp listed
  obtain ⟨earlier, later, rfl⟩ := List.append_of_mem present
  obtain ⟨first, member, rest, rfl, -, isStep, -⟩ := forall₂_append_cons facts
  exact ⟨member, List.mem_append_right _ List.mem_cons_self, same ▸ isStep.fits shallow within⟩

/-- The lines of steps are all written. -/
theorem written_of_steps {members : List Member} {steps : List (List Line)}
    (facts : List.Forall₂ w.IsStep members steps) : ∀ line ∈ steps.flatten, line.text ≠ "" := by
  intro line inside
  have same : line ∈ sunk 0 steps.flatten := List.mem_map.mpr ⟨line, inside, rfl⟩
  obtain ⟨member, -, fits⟩ := fits_of_mem_steps facts same
  exact fits.written

/-- No member after another one has its name. -/
theorem ne_of_later {struct : Struct} {known : List String} (sound : struct.Sound known)
    {first rest : List Member} {earlier later : Member}
    (members : struct.members = first ++ earlier :: rest) (after : later ∈ rest) :
    earlier.name ≠ later.name := by
  obtain ⟨between, others, rfl⟩ := List.append_of_mem after
  have whole : struct.members = (first ++ earlier :: between) ++ later :: others := by
    rw [members, List.append_assoc, List.cons_append]
  exact (sound _ later others whole).fresh earlier
    (List.mem_append_right _ List.mem_cons_self)

/-- A length of a member is carried by an earlier member of an integer type without dimensions. The
step of the carrier ends with the line that puts the number into its field. -/
theorem exists_carrier {struct : Struct} {known : List String} (sound : struct.Sound known)
    {first others : List Member} {member : Member}
    (members : struct.members = first ++ member :: others) {earlier : List (List Line)}
    (facts : List.Forall₂ w.IsStep first earlier) {dimension : Dimension}
    (listed : dimension ∈ member.dimensions) (dynamic : dimension.isConstant = false) :
    ∃ outer carrier inner before body between, first = outer ++ carrier :: inner ∧
      earlier = before ++ (body ++ [plain (w.stored carrier.name)]) :: between ∧
      List.Forall₂ w.IsStep inner between ∧ carrier.name = dimension.size ∧
      carrier.dimensions = [] ∧ carrier.type.isInteger = true := by
  obtain ⟨carrier, declared, named, single, integer⟩ :=
    ((sound first member others members).dimensions dimension listed).resolve_left
      (Bool.eq_false_iff.mp dynamic)
  have scalar : carrier.dimensions = [] := by
    simpa [Member.isArray] using single
  obtain ⟨outer, inner, rfl⟩ := List.append_of_mem declared
  obtain ⟨before, own, between, rfl, -, carries, later⟩ :=
    forall₂_append_cons (List.Forall₂.flip facts)
  obtain ⟨body, rfl⟩ : ∃ body, own = body ++ [plain (w.stored carrier.name)] :=
    carries.stored scalar integer
  exact ⟨outer, carrier, inner, before, body, between, rfl, rfl, later.flip, named, scalar,
    integer⟩

/-- **Steps in order put lengths first.** In a sound struct a block that opens on a length of a
member comes after the step of the carrier, and no step after that one assigns to the field. -/
theorem lengthsFirst_of_steps {struct : Struct} {known : List String} (sound : struct.Sound known)
    {steps : List (List Line)} (facts : List.Forall₂ w.IsStep struct.members steps)
    {opening closing : List Line} (opens : ∀ line ∈ opening, w.Around line.text)
    (closes : ∀ line ∈ closing, w.Around line.text) :
    w.LengthsFirst struct (opening ++ sunk w.depth steps.flatten ++ closing) := by
  have around : ∀ line ∈ opening ++ closing, w.Around line.text := fun line inside =>
    (List.mem_append.mp inside).elim (opens line) (closes line)
  refine ⟨?_, opening, steps, closing, rfl, fun line inside ⟨_, _, marked⟩ =>
    (around line inside).unmarked _ _ marked, facts.imp fun _ _ isStep => isStep.toTestsFirst⟩
  intro before header after name whole block mentioned
  have notAround : ∀ lines : List Line, (∀ line ∈ lines, w.Around line.text) → header ∉ lines :=
    fun lines each inside => (each header inside).reads block name mentioned
  rw [List.append_assoc] at whole
  obtain ⟨front, rfl, within⟩ := (split_append whole).resolve_left fun ⟨back, inside, _⟩ =>
    notAround opening opens (inside ▸ List.mem_append_right _ List.mem_cons_self)
  obtain ⟨earlier, step, later, front, back, rfl, rfl, here, rfl⟩ :=
    (split_steps within).resolve_left (notAround closing closes)
  obtain ⟨first, member, others, members, firstFacts, isStep, otherFacts⟩ :=
    forall₂_append_cons facts
  -- the block opens on a length of the member, which an earlier member carries
  obtain ⟨_, inStep, same, -⟩ := mem_sunk (here ▸ List.mem_append_right front List.mem_cons_self)
  have fits := isStep.fits _ inStep
  rw [same] at fits
  obtain ⟨dimension, listed, dynamic, rfl⟩ := fits.reads block name mentioned
  obtain ⟨outer, carrier, inner, before, body, between, rfl, rfl, betweenFacts, named, scalar,
    integer⟩ := exists_carrier sound members firstFacts listed dynamic
  have shape : opening ++ (sunk w.depth (before ++ (body ++ [plain (w.stored carrier.name)]) ::
        between).flatten ++ front) =
      (opening ++ sunk w.depth (before.flatten ++ body)) ++
        ⟨w.depth, w.stored carrier.name⟩ :: (sunk w.depth between.flatten ++ front) := by
    simp [sunk, plain]
  have tail : (sunk w.depth between.flatten ++ front) ++
        header :: (back ++ sunk w.depth later.flatten ++ closing) =
      sunk w.depth (between ++ step :: later).flatten ++ closing := by
    rw [List.flatten_append, List.flatten_cons, sunk_append, sunk_append, here]
    simp only [List.append_assoc, List.cons_append]
  have laterFacts : List.Forall₂ w.IsStep (inner ++ member :: others) (between ++ step :: later) :=
    List.rel_append betweenFacts (.cons isStep otherFacts)
  have whole : struct.members = outer ++ carrier :: (inner ++ member :: others) := by
    rw [members, List.append_assoc, List.cons_append]
  rw [← named]
  refine ⟨_, _, shape, ?_, ⟨carrier, ?_, rfl, scalar, integer⟩, ?_⟩
  · -- a loop among the steps stands no higher than the line
    rintro ⟨start, loop, rest, split, marked, deep⟩
    have shallow : loop.depth < w.depth := deep _ (List.mem_append_right _ List.mem_cons_self)
    have inside : loop ∈ opening ++ sunk w.depth (before.flatten ++ body) :=
      split ▸ List.mem_append_right _ List.mem_cons_self
    rcases List.mem_append.mp inside with outside | steps
    · obtain ⟨counter, extent, marked⟩ := marked
      exact (opens loop outside).unmarked counter extent marked
    · obtain ⟨-, -, -, deep⟩ := mem_sunk steps
      omega
  · rw [whole]
    exact List.mem_append_right _ List.mem_cons_self
  · intro line inside assigned
    rw [tail] at inside
    rcases List.mem_append.mp inside with steps | after
    · obtain ⟨other, present, fits⟩ := fits_of_mem_steps laterFacts steps
      exact ne_of_later sound whole present (fits.assigns _ assigned)
    · exact (closes line after).assigns _ assigned

/-- **A length is stored before it is tested.** A dynamic extent makes the step of its member test
the field, so the field has been read in an earlier step. -/
theorem LengthsFirst.stored_before_test (regular : w.IsRegular) {struct : Struct}
    {lines : List Line} (first : w.LengthsFirst struct lines) (listed : member ∈ struct.members)
    {dimension : Dimension} (among : dimension ∈ member.dimensions)
    (dynamic : dimension.isConstant = false) (undotted : Undotted dimension.size) :
    ∃ before between after, lines = before ++ ⟨w.depth, w.stored dimension.size⟩ ::
      (between ++ ⟨w.depth, w.test dimension.size⟩ :: after) := by
  obtain ⟨opening, steps, closing, rfl, -, facts⟩ := first.tested
  obtain ⟨earlier, later, members⟩ := List.append_of_mem listed
  rw [members] at facts
  obtain ⟨others, step, rest, rfl, -, tests, -⟩ := forall₂_append_cons (List.Forall₂.flip facts)
  have own : w.TestsFirst member step := tests
  obtain ⟨front, back, split, -⟩ := own.tested dimension among dynamic
  have whole : opening ++ sunk w.depth (others ++ step :: rest).flatten ++ closing =
      (opening ++ sunk w.depth (others.flatten ++ front)) ++ ⟨w.depth, w.test dimension.size⟩ ::
        (sunk w.depth (w.refusal ++ back ++ rest.flatten) ++ closing) := by
    simp [split, sunk, guard, plain]
  obtain ⟨before, between, shape, -⟩ := first.stored _ _ _ dimension.size whole
    ⟨"if ", by decide, regular.opens _⟩ (regular.mentions_test undotted)
  refine ⟨before, between, sunk w.depth (w.refusal ++ back ++ rest.flatten) ++ closing, ?_⟩
  rw [whole, shape, List.append_assoc, List.cons_append]

end Wording

end Wireform.Backend
