import Mathlib.Data.List.Basic
import Wireform.Plan.Codec
import Wireform.Proofs.Backend.Reading
import Wireform.Proofs.Outcome
import Wireform.Proofs.Text.Runs

/-! # Outlines of codecs

The outline of a struct says in which order its values are transferred, without reference to a
language: its members in the order of their definition, each below one loop for each dimension from
the outermost in (`Wireform.Struct.outline`). The skeleton of generated code says the same of that
code: it holds the lines that open a loop over a dimension and the lines that transfer an element,
with their depths (`Wireform.Backend.skeleton`). Backends write such lines in their own words, so a
skeleton is read with a reader for one line, and it is compared with the outline in which types are
replaced by the names that the backend gives them
(`Wireform.Backend.SkeletonLine.translate`).
-/

namespace Wireform.Backend

/-- How often a loop runs: as often as a numeral says, or as the value of a member says. -/
inductive Extent where
  | numeral (text : String)
  | length (member : String)
  deriving DecidableEq, Repr

/-- What a line of a codec does that matters for the order of its values. -/
inductive Mark (Element : Type) where
  /-- Opens the loop of a dimension. -/
  | loop (counter : String) (extent : Extent)
  /-- Writes or reads one element. -/
  | transfer (element : Element)
  deriving DecidableEq, Repr

/-- A mark and the depth of its line. -/
structure SkeletonLine (Element : Type) where
  depth : Nat
  mark : Mark Element
  deriving DecidableEq, Repr

namespace SkeletonLine

variable {Element Name : Type}

/-- The skeleton line some levels deeper, with the names of a backend for the elements. -/
def translate (levels : Nat) (name : Element → Name) (line : SkeletonLine Element) :
    SkeletonLine Name :=
  ⟨line.depth + levels,
    match line.mark with
    | .loop counter extent => .loop counter extent
    | .transfer element => .transfer (name element)⟩

/-- The skeleton line one level deeper. -/
def deeper (line : SkeletonLine Element) : SkeletonLine Element :=
  { line with depth := line.depth + 1 }

end SkeletonLine

/-! ### Extents -/

namespace Extent

/-- The extent of a dimension. -/
def ofDimension (dimension : Dimension) : Except Numeral.Fault Extent :=
  if dimension.isConstant then do return .numeral (← Numeral.write (← dimension.extent))
  else return .length dimension.size

/-- An extent in the code that keeps the value in `owner`. -/
def text (owner : String) : Extent → String
  | numeral digits => digits
  | length member => owner ++ "." ++ member

/-- The extent that a text stands for in the code that keeps the value in `owner`. -/
def read (owner : String) (text : List Char) : Extent :=
  match (owner ++ ".").toList.isPrefixOf? text with
  | some member => .length (String.ofList member)
  | none => .numeral (String.ofList text)

end Extent

/-! ### Outlines -/

/-- The outline of a transfer below the loops of some dimensions, the first of them being the loop
`level`. The body of a loop stands one level deeper. -/
def outlineFrom (type : FieldType) (level : Nat) :
    List Dimension → Except Numeral.Fault (List (SkeletonLine FieldType))
  | [] => return [⟨0, .transfer type⟩]
  | dimension :: rest => do
      let extent ← Extent.ofDimension dimension
      let inner ← outlineFrom type (level + 1) rest
      return ⟨0, .loop (toString level) extent⟩ :: inner.map SkeletonLine.deeper

end Wireform.Backend

namespace Wireform

open Backend in
/-- The outline of a member: one loop for each dimension from the outermost in, and the transfer of
an element below them. -/
def Member.outline (member : Member) : Except Numeral.Fault (List (SkeletonLine FieldType)) :=
  outlineFrom member.type 0 member.dimensions

open Backend in
/-- The outline of a struct: the outlines of its members in the order of their definition. -/
def Struct.outline (struct : Struct) : Except Numeral.Fault (List (SkeletonLine FieldType)) := do
  return (← struct.members.mapM Member.outline).flatten

end Wireform

namespace Wireform.Backend

/-! ### Skeletons -/

section Skeleton

variable {Element : Type} (read : String → Option (Mark Element))

/-- The lines in which a reader finds a mark, in order. -/
def skeleton (lines : List Line) : List (SkeletonLine Element) :=
  lines.filterMap fun line => (read line.text).map (SkeletonLine.mk line.depth)

/-- No lines have no skeleton. -/
@[simp] theorem skeleton_nil : skeleton read [] = [] := rfl

/-- The skeleton of lines is read off line by line. -/
@[simp] theorem skeleton_append (first second : List Line) :
    skeleton read (first ++ second) = skeleton read first ++ skeleton read second :=
  List.filterMap_append

/-- A line without a mark is left out. -/
theorem skeleton_cons_of_none {line : Line} (unmarked : read line.text = none)
    (lines : List Line) : skeleton read (line :: lines) = skeleton read lines := by
  simp [skeleton, unmarked]

/-- A line with a mark is kept at its depth. -/
theorem skeleton_cons_of_some {line : Line} {mark : Mark Element}
    (marked : read line.text = some mark) (lines : List Line) :
    skeleton read (line :: lines) = ⟨line.depth, mark⟩ :: skeleton read lines := by
  simp [skeleton, marked]

/-- Deeper lines have a deeper skeleton. -/
@[simp] theorem skeleton_deeper (lines : List Line) :
    skeleton read (deeper lines) = (skeleton read lines).map SkeletonLine.deeper := by
  induction lines with
  | nil => rfl
  | cons line lines ih =>
      cases marked : read line.text with
      | none =>
          have below : read line.deeper.text = none := marked
          rw [deeper_cons, skeleton_cons_of_none read below, skeleton_cons_of_none read marked, ih]
      | some mark =>
          have below : read line.deeper.text = some mark := marked
          rw [deeper_cons, skeleton_cons_of_some read below, skeleton_cons_of_some read marked, ih]
          rfl

/-- A plain line without a mark is left out. -/
theorem skeleton_plain_of_none {text : String} (unmarked : read text = none)
    (lines : List Line) : skeleton read (plain text :: lines) = skeleton read lines :=
  skeleton_cons_of_none read unmarked lines

/-- A block whose header has no mark counts by its body. -/
theorem skeleton_block_of_none {header : String} (unmarked : read header = none)
    (body : List Line) :
    skeleton read (block header body) = (skeleton read body).map SkeletonLine.deeper := by
  rw [block, skeleton_plain_of_none read unmarked, skeleton_deeper]

/-- A block whose header has a mark counts by both. -/
theorem skeleton_block_of_some {header : String} {mark : Mark Element}
    (marked : read header = some mark) (body : List Line) :
    skeleton read (block header body) =
      ⟨0, mark⟩ :: (skeleton read body).map SkeletonLine.deeper := by
  have opens : read (plain header).text = some mark := marked
  rw [block, skeleton_cons_of_some read opens, skeleton_deeper]
  rfl

/-- Lines without a mark have no skeleton. -/
theorem skeleton_eq_nil {lines : List Line} (unmarked : ∀ line ∈ lines, read line.text = none) :
    skeleton read lines = [] := by
  simpa [skeleton] using unmarked

/-- Empty lines do not matter for the skeleton. -/
theorem skeleton_occupied (unmarked : read "" = none) (lines : List Line) :
    skeleton read (occupied lines) = skeleton read lines := by
  unfold skeleton occupied
  rw [List.filterMap_filter]
  congr 1
  funext line
  by_cases empty : line.text = ""
  · simp [empty, unmarked]
  · simp [empty]

/-- **Steps that follow the outlines of their members follow the outline of the struct.** -/
theorem skeleton_steps {Fault Name : Type} {read : String → Option (Mark Name)}
    {name : FieldType → Name} {write : FieldStep → Except Fault (List Line)}
    {members : List Member} {steps : List (List Line)}
    (each : ∀ member ∈ members, ∀ lines, write (.ofMember member) = .ok lines →
      ∃ outline, member.outline = .ok outline ∧
        skeleton read lines = outline.map (SkeletonLine.translate 0 name))
    (written : (members.map FieldStep.ofMember).mapM write = .ok steps) :
    ∃ outlines, members.mapM Member.outline = .ok outlines ∧
      skeleton read steps.flatten = outlines.flatten.map (SkeletonLine.translate 0 name) := by
  induction members generalizing steps with
  | nil =>
      obtain rfl := Outcome.mapM_nil_eq_ok.mp written
      exact ⟨[], rfl, rfl⟩
  | cons member members ih =>
      obtain ⟨lines, rest, head, tail, rfl⟩ := Outcome.mapM_cons_eq_ok.mp written
      obtain ⟨outline, outlined, same⟩ := each member List.mem_cons_self lines head
      obtain ⟨outlines, others, sameRest⟩ :=
        ih (fun later listed => each later (List.mem_cons_of_mem _ listed)) tail
      refine ⟨outline :: outlines,
        Outcome.mapM_cons_eq_ok.mpr ⟨outline, outlines, outlined, others, rfl⟩, ?_⟩
      rw [List.flatten_cons, skeleton_append, same, sameRest, List.flatten_cons, List.map_append]

end Skeleton

/-! ### Lines -/

/-- Where fixed characters begin. -/
theorem head_ofList (c : Char) (chars : List Char) :
    (String.ofList (c :: chars)).toList.head? = some c := by
  rw [String.toList_ofList, List.head?_cons]

/-- More text does not change where a text begins. -/
theorem head_append {first : String} {c : Char} (starts : first.toList.head? = some c)
    (second : String) : (first ++ second).toList.head? = some c := by
  rw [String.toList_append, List.head?_append, starts, Option.some_or]

/-- A prefix is taken off, and the rest remains. -/
theorem isPrefixOf?_append (first rest : List Char) :
    first.isPrefixOf? (first ++ rest) = some rest := by
  exact List.isPrefixOf?_eq_some_iff_append_eq.mpr rfl

/-- A suffix is taken off, and the front remains. -/
theorem isSuffixOf?_append (first last : List Char) :
    last.isSuffixOf? (first ++ last) = some first := by
  exact List.isSuffixOf?_eq_some_iff_append_eq.mpr rfl

/-- The numeral of a natural number has digits only. -/
theorem isDigit_of_mem_toString {n : Nat} {c : Char} (member : c ∈ (toString n).toList) :
    c.isDigit = true := by
  have digits : (toString n).toList = Nat.toDigits 10 n := Nat.toList_repr
  rw [digits] at member
  exact Nat.isDigit_of_mem_toDigits (by omega) (by omega) member

/-- A numeral has digits and perhaps a sign. -/
theorem isDigit_or_sign_of_write {value : Int} {text : String}
    (written : Numeral.write value = .ok text) {c : Char} (member : c ∈ text.toList) :
    c.isDigit = true ∨ c = '-' := by
  unfold Numeral.write at written
  split at written
  · cases written
  · obtain rfl := Except.ok.inj written
    cases value with
    | ofNat n => exact .inl (isDigit_of_mem_toString member)
    | negSucc n =>
        have signed : (toString (Int.negSucc n)).toList = '-' :: (toString (n + 1)).toList := by
          change ("-" ++ toString (n + 1)).toList = _
          simp
        rw [signed] at member
        rcases List.mem_cons.mp member with sign | digit
        · exact .inr sign
        · exact .inl (isDigit_of_mem_toString digit)

/-- A text that no numeral starts with, so that the fields of a value kept there are told from
numerals. -/
def IsOwner (owner : String) : Prop :=
  ∃ first rest, owner.toList = first :: rest ∧ first.isDigit = false ∧ first ≠ '-'

/-- An extent is a written number, or the length that a dynamic dimension names. -/
theorem Extent.ofDimension_eq_ok {dimension : Dimension} {extent : Extent}
    (found : ofDimension dimension = .ok extent) :
    (∃ value digits, Numeral.write value = .ok digits ∧ extent = .numeral digits) ∨
      dimension.isConstant = false ∧ extent = .length dimension.size := by
  unfold ofDimension at found
  split at found
  · obtain ⟨value, -, rest⟩ := Outcome.bind_eq_ok.mp found
    obtain ⟨digits, written, made⟩ := Outcome.bind_eq_ok.mp rest
    exact .inl ⟨value, digits, written, (Outcome.pure_eq_ok.mp made).symm⟩
  · next dynamic =>
      obtain rfl := Outcome.pure_eq_ok.mp found
      exact .inr ⟨Bool.eq_false_iff.mpr dynamic, rfl⟩

/-- An extent is read back from its text. -/
theorem Extent.read_text {owner : String} (distinct : IsOwner owner) {dimension : Dimension}
    {extent : Extent} (found : ofDimension dimension = .ok extent) :
    read owner (extent.text owner).toList = extent := by
  rcases ofDimension_eq_ok found with ⟨value, digits, written, rfl⟩ | ⟨-, rfl⟩
  · obtain ⟨first, rest, starts, letter, unsigned⟩ := distinct
    have foreign : (owner ++ ".").toList.isPrefixOf? digits.toList = none := by
      rw [String.toList_append, starts]
      cases shape : digits.toList with
      | nil => rfl
      | cons c tail =>
          have differs : first ≠ c := by
            rintro rfl
            have member : first ∈ digits.toList := shape ▸ List.mem_cons_self
            rcases isDigit_or_sign_of_write written member with digit | sign
            · exact absurd (letter.symm.trans digit) (by simp)
            · exact unsigned sign
          simp [List.isPrefixOf?, differs]
    simp only [read, text, foreign, String.ofList_toList]
  · have split : (text owner (.length dimension.size)).toList =
        (owner ++ ".").toList ++ dimension.size.toList := by
      simp [text]
    simp only [read, split, isPrefixOf?_append, String.ofList_toList]

/-- Reads a line that opens the loop of a dimension: a counter and an extent, with fixed words
around them. -/
def readLoop {Element : Type} (owner opening middle closing : String) (text : List Char) :
    Option (Mark Element) := do
  let rest ← opening.toList.isPrefixOf? text
  let tail ← middle.toList.isPrefixOf? (rest.dropWhile Char.isDigit)
  let extent ← closing.toList.isSuffixOf? tail
  return .loop (String.ofList (rest.takeWhile Char.isDigit)) (.read owner extent)

/-- A loop is read back from the line that opens it. -/
theorem readLoop_written {Element : Type} {owner : String} (distinct : IsOwner owner)
    (opening middle closing : String) {sep : Char} {tail : List Char}
    (separated : middle.toList = sep :: tail) (ends : sep.isDigit = false) (level : Nat)
    {dimension : Dimension} {extent : Extent}
    (found : Extent.ofDimension dimension = .ok extent) :
    readLoop owner opening middle closing
        (opening ++ toString level ++ middle ++ extent.text owner ++ closing).toList =
      some (.loop (toString level) extent : Mark Element) := by
  have counter : ∀ c ∈ (toString level).toList, c.isDigit = true :=
    fun c member => isDigit_of_mem_toString member
  have stops : ∀ rest, (middle.toList ++ rest).takeWhile Char.isDigit = [] ∧
      (middle.toList ++ rest).dropWhile Char.isDigit = middle.toList ++ rest := by
    intro rest
    simp [separated, ends]
  simp only [readLoop, String.toList_append, List.append_assoc, isPrefixOf?_append,
    Option.bind_eq_bind, Option.bind_some, List.dropWhile_append_of_pos counter,
    List.takeWhile_append_of_pos counter, (stops _).1, (stops _).2, List.append_nil,
    String.ofList_toList]
  rw [isSuffixOf?_append, Option.bind_some, Extent.read_text distinct found]
  rfl

end Wireform.Backend
