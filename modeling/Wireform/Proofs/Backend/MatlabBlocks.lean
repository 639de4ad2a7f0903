import Wireform.Proofs.Backend.FramedWords
import Wireform.Proofs.Backend.MatlabLengths
import Wireform.Proofs.Text.Classes

/-! # Blocks of generated MATLAB functions

A MATLAB block runs from the line that opens it to an `end` of its own. Reading the lines in order
keeps the openers of the blocks that are open, and fails where a line closes no block or one that
was opened at another depth (`Wireform.Backend.openBlocks`).

Lines with their blocks are `Wireform.Backend.Balanced` below the openers around them. Every line of
such a block knows these openers: it has index variables only of loops that one of them opens. So
balanced lines leave the open blocks as they are (`Wireform.Backend.Balanced.openBlocks_eq`), and an
index variable stands in the block of its loop (`Wireform.Backend.Balanced.exists_opener`).
-/

namespace Wireform.Backend

open Text (isBlank strip)

/-! ### Reading blocks -/

/-- Whether a line opens a block. -/
def isOpener (text : String) : Bool :=
  ["for ", "if ", "while "].any fun word => word.toList.isPrefixOf (strip text.toList)

/-- Whether a line closes a block. -/
def isCloser (text : String) : Bool := strip text.toList = "end".toList

/-- The lines of the blocks that are open behind some lines, the innermost first, `stack` being
those that are open before them. There are none if a line closes no block, or one that was opened at
another depth. -/
def openBlocks (stack : List Line) : List Line → Option (List Line)
  | [] => some stack
  | line :: rest =>
      if isOpener line.text then openBlocks (line :: stack) rest
      else if isCloser line.text then
        match stack with
        | [] => none
        | opener :: outer => if opener.depth = line.depth then openBlocks outer rest else none
      else openBlocks stack rest

section OpenBlocks

variable {stack rest : List Line} {depth : Nat} {text : String}

private theorem openBlocks_of_opener (opens : isOpener text = true) :
    openBlocks stack (⟨depth, text⟩ :: rest) = openBlocks (⟨depth, text⟩ :: stack) rest := by
  rw [openBlocks.eq_def]
  simp only [opens, ↓reduceIte]

private theorem openBlocks_of_neutral (opens : isOpener text = false)
    (closes : isCloser text = false) :
    openBlocks stack (⟨depth, text⟩ :: rest) = openBlocks stack rest := by
  rw [openBlocks.eq_def]
  simp only [opens, closes, Bool.false_eq_true, ↓reduceIte]

private theorem isOpener_end : isOpener "end" = false := by decide

private theorem isCloser_end : isCloser "end" = true := by decide

/-- An end closes the block that was opened last. -/
theorem openBlocks_end :
    openBlocks (⟨depth, text⟩ :: stack) (⟨depth, "end"⟩ :: rest) = openBlocks stack rest := by
  rw [openBlocks.eq_def]
  simp only [isOpener_end, isCloser_end, Bool.false_eq_true, ↓reduceIte]

end OpenBlocks

/-- The characters around an index variable, and those in it. -/
def indexFrame : Frame where
  opens c := c == '(' || c == '\x7b' || c == ' '
  inner c := c == 'd' || c == 'x' || c.isDigit
  closes c := c == ')' || c == '\x7d' || c == ','
  starts c opens := by
    simp only [Bool.or_eq_true, beq_iff_eq, or_assoc] at opens
    rcases opens with rfl | rfl | rfl <;> rfl
  stops c closes := by
    simp only [Bool.or_eq_true, beq_iff_eq, or_assoc] at closes
    rcases closes with rfl | rfl | rfl <;> rfl

/-- Whether a text has the index variable of a level in an element expression: behind a bracket or a
blank and before a bracket or a comma. -/
def HasIndex (level : Nat) (text : String) : Prop :=
  ∃ o ∈ ['(', '\x7b', ' '], ∃ c ∈ [')', '\x7d', ','],
    o :: (("dx" ++ toString level).toList ++ [c]) <:+: text.toList

instance (level : Nat) (text : String) : Decidable (HasIndex level text) :=
  @List.decidableBEx _ _ (fun _ => List.decidableBEx _ _) _

/-- Whether a line opens the loop of a level. -/
def OpensLoop (level : Nat) (text : String) : Prop :=
  ("for dx" ++ toString level ++ " = 1:").toList <+: text.toList

/-! ### Placed lines -/

/-- A word that may be framed below some lines: an index variable of a loop that one of them opens,
or no index variable. -/
def IsBound (scope : List String) (word : List Char) : Prop :=
  ∀ level, word = ("dx" ++ toString level).toList → ∃ header ∈ scope, OpensLoop level header

/-- A line that may stand below some others. -/
structure Placed (scope : List String) (text : String) : Prop where
  flush : ∀ c ∈ text.toList.head?, isBlank c = false
  bound : indexFrame.Fits (IsBound scope) text

/-- The characters of an index variable are those of framed words. -/
theorem inner_of_mem_index {level : Nat} {c : Char}
    (member : c ∈ ("dx" ++ toString level).toList) : indexFrame.inner c = true := by
  rw [String.toList_append, List.mem_append] at member
  rcases member with letter | digit
  · have letters : ∀ c ∈ "dx".toList, indexFrame.inner c = true := by simp [indexFrame]
    exact letters c letter
  · simp [indexFrame, isDigit_of_mem_toString digit]

private theorem not_hasIndex_end (level : Nat) : ¬ HasIndex level "end" := by
  rintro ⟨o, -, c, -, found⟩
  have member : 'x' ∈ o :: (("dx" ++ toString level).toList ++ [c]) := by simp
  exact absurd (found.subset member) (by simp)

private theorem Placed.exists_loop {scope : List String} {text : String}
    (placed : Placed scope text)
    {level : Nat} (index : HasIndex level text) : ∃ header ∈ scope, OpensLoop level header := by
  obtain ⟨o, opens, c, closes, found⟩ := index
  have opened : ∀ o ∈ ['(', '\x7b', ' '], indexFrame.opens o = true := by simp [indexFrame]
  have closed : ∀ c ∈ [')', '\x7d', ','], indexFrame.closes c = true := by simp [indexFrame]
  have framed := Frame.mem_words_of_infix (opened o opens) (fun _ => inner_of_mem_index)
    (closed c closes) found
  exact placed.bound _ framed level rfl

/-- Lines with the blocks in them, below the openers of the blocks around them. -/
inductive Balanced : List String → List Line → Prop
  | nil {scope} : Balanced scope []
  | line {scope depth text rest} (placed : Placed scope text) (opens : isOpener text = false)
      (closes : isCloser text = false) (later : Balanced scope rest) :
      Balanced scope (⟨depth, text⟩ :: rest)
  | block {scope depth opener body rest} (placed : Placed scope opener)
      (opens : isOpener opener = true) (inside : Balanced (opener :: scope) body)
      (later : Balanced scope rest) :
      Balanced scope (⟨depth, opener⟩ :: (body ++ ⟨depth, "end"⟩ :: rest))

namespace Balanced

variable {scope : List String} {lines first second : List Line}

/-- Balanced lines may follow each other. -/
theorem append (left : Balanced scope first) (right : Balanced scope second) :
    Balanced scope (first ++ second) := by
  induction left with
  | nil => exact right
  | line placed opens closes _ ih => exact .line placed opens closes (ih right)
  | @block scope depth opener body rest placed opens inside _ _ ih =>
      have shape : ⟨depth, opener⟩ :: (body ++ ⟨depth, "end"⟩ :: rest) ++ second =
          ⟨depth, opener⟩ :: (body ++ ⟨depth, "end"⟩ :: (rest ++ second)) := by
        simp only [List.cons_append, List.append_assoc]
      rw [shape]
      exact .block placed opens inside (ih right)

/-- The depth of lines does not matter to their blocks. -/
theorem deeper (balanced : Balanced scope lines) : Balanced scope (deeper lines) := by
  induction balanced with
  | nil => exact .nil
  | line placed opens closes _ ih => exact .line placed opens closes ih
  | block placed opens _ _ inner outer =>
      rw [deeper_cons, deeper_append, deeper_cons]
      exact .block placed opens inner outer

/-- A closed block is balanced where its body is, below its opener. -/
theorem closedBlock {header : String} (placed : Placed scope header)
    (opens : isOpener header = true) {body : List Line} (inside : Balanced (header :: scope) body) :
    Balanced scope (closedBlock header body "end") :=
  .block placed opens inside.deeper .nil

/-- Empty lines do not matter to the blocks. -/
theorem occupied (balanced : Balanced scope lines) : Balanced scope (occupied lines) := by
  induction balanced with
  | nil => exact .nil
  | @line scope depth text rest placed opens closes _ ih =>
      by_cases empty : text = ""
      · subst empty
        exact ih
      · have written : (Line.mk depth text).text ≠ "" := empty
        rw [occupied_cons written]
        exact .line placed opens closes ih
  | @block scope depth opener body rest placed opens _ _ inner outer =>
      have written : (Line.mk depth opener).text ≠ "" := by
        rintro rfl
        exact absurd opens (by decide)
      have ends : (Line.mk depth "end").text ≠ "" := by simp
      rw [occupied_cons written, occupied_append, occupied_cons ends]
      exact .block placed opens inner outer

/-- Balanced lines begin with no blank. -/
theorem flush (balanced : Balanced scope lines) :
    ∀ line ∈ lines, ∀ c ∈ line.text.toList.head?, isBlank c = false := by
  induction balanced with
  | nil => exact List.forall_mem_nil _
  | line placed _ _ _ ih => exact List.forall_mem_cons.mpr ⟨placed.flush, ih⟩
  | block placed _ _ _ inner outer =>
      have ends : ∀ c ∈ "end".toList.head?, isBlank c = false := by
        intro c first
        obtain rfl := Option.some.inj first
        decide
      exact List.forall_mem_cons.mpr ⟨placed.flush, List.forall_mem_append.mpr
        ⟨inner, List.forall_mem_cons.mpr ⟨ends, outer⟩⟩⟩

/-- Balanced parts make balanced lines. -/
theorem flatten {parts : List (List Line)} (each : ∀ part ∈ parts, Balanced scope part) :
    Balanced scope parts.flatten := by
  induction parts with
  | nil => exact .nil
  | cons part parts ih =>
      obtain ⟨here, later⟩ := List.forall_mem_cons.mp each
      exact here.append (ih later)

/-- What follows balanced lines is read as if they were not there. -/
theorem openBlocks_append (balanced : Balanced scope lines) (stack more : List Line) :
    openBlocks stack (lines ++ more) = openBlocks stack more := by
  induction balanced generalizing stack more with
  | nil => rfl
  | line placed opens closes _ ih =>
      rw [List.cons_append, openBlocks_of_neutral opens closes]
      exact ih stack more
  | @block scope depth opener body rest placed opens _ _ inner outer =>
      rw [List.cons_append, List.append_assoc, openBlocks_of_opener opens, inner,
        List.cons_append, openBlocks_end, outer]

/-- **Balanced lines leave no block open.** -/
theorem openBlocks_eq (balanced : Balanced scope lines) (stack : List Line) :
    openBlocks stack lines = some stack := by
  have whole := balanced.openBlocks_append stack []
  rwa [List.append_nil] at whole

/-- An end closes no block that was opened at another depth. -/
example : openBlocks [] [⟨0, "if visit"⟩, ⟨1, "break"⟩, ⟨0, "end"⟩] = some [] ∧
    openBlocks [] [⟨0, "if visit"⟩, ⟨1, "break"⟩, ⟨1, "end"⟩] = none := by
  decide

/-- **An index variable stands in the block of its loop.** -/
theorem exists_opener (balanced : Balanced scope lines) {stack : List Line}
    (around : stack.map Line.text = scope) {before after : List Line} {line : Line}
    (shape : lines = before ++ line :: after) {level : Nat} (index : HasIndex level line.text) :
    ∃ opened, openBlocks stack before = some opened ∧
      ∃ opener ∈ opened, OpensLoop level opener.text := by
  -- a line that is placed below the open blocks has its loop among them
  have here {scope : List String} {stack : List Line} (around : stack.map Line.text = scope)
      {text : String} (placed : Placed scope text) (index : HasIndex level text) :
      ∃ opened, openBlocks stack [] = some opened ∧
        ∃ opener ∈ opened, OpensLoop level opener.text := by
    obtain ⟨header, listed, opens⟩ := placed.exists_loop index
    rw [← around] at listed
    obtain ⟨opener, present, rfl⟩ := List.mem_map.mp listed
    exact ⟨stack, rfl, opener, present, opens⟩
  induction balanced generalizing stack before after with
  | nil => cases before <;> cases shape
  | @line scope depth text rest placed opens closes later ih =>
      cases before with
      | nil =>
          obtain ⟨rfl, -⟩ := List.cons.inj shape
          exact here around placed index
      | cons first before =>
          obtain ⟨rfl, tail⟩ := List.cons.inj shape
          rw [openBlocks_of_neutral opens closes]
          exact ih around tail
  | @block scope depth opener body rest placed opens inside later inner outer =>
      cases before with
      | nil =>
          obtain ⟨rfl, -⟩ := List.cons.inj shape
          exact here around placed index
      | cons first before =>
          obtain ⟨rfl, tail⟩ := List.cons.inj shape
          rw [openBlocks_of_opener opens]
          rcases split_append tail with ⟨back, own, -⟩ | ⟨front, rfl, beyond⟩
          · have nested : (⟨depth, opener⟩ :: stack).map Line.text = opener :: scope :=
              congrArg (opener :: ·) around
            exact inner nested own
          · cases front with
            | nil =>
                obtain ⟨rfl, -⟩ := List.cons.inj beyond
                exact absurd index (not_hasIndex_end level)
            | cons closer front =>
                obtain ⟨rfl, final⟩ := List.cons.inj beyond
                rw [inside.openBlocks_append, openBlocks_end]
                exact outer around final

end Balanced

end Wireform.Backend
