import Wireform.Backend.Layout

/-! # Reading generated code back

Generated code is written as one text. Splitting that text at its line breaks and counting the
blanks at the start of each line gives back the lines from which it was laid out, except the empty
ones (`Wireform.Backend.codeLines_layOut`). This needs no more than that no line holds a line break
and none but the layout starts a line with a blank (`Wireform.Backend.Line.Legible`), so statements
about a generated text can be made about its lines, whatever precedes them
(`Wireform.Backend.codeLines_layOut_append`). A block is found again below the last line that equals
its header (`Wireform.Backend.blockUnder_eq`).
-/

namespace Wireform.Backend

/-! ### Lines of a text -/

/-- The lines of a text, without the line breaks that end them. -/
def splitLines : List Char → List (List Char)
  | [] => []
  | c :: rest =>
      if c = '\n' then [] :: splitLines rest
      else match splitLines rest with
        | [] => [[c]]
        | line :: lines => (c :: line) :: lines

/-- The depth and the text of a written line. Four blanks at its start are one level. -/
def Line.read : List Char → Line
  | ' ' :: ' ' :: ' ' :: ' ' :: rest => (Line.read rest).deeper
  | text => ⟨0, String.ofList text⟩

/-- The lines that are not empty. -/
def occupied (lines : List Line) : List Line := lines.filter (!·.text.isEmpty)

/-- The lines of a text that are not empty, with their depths. -/
def codeLines (text : String) : List Line :=
  occupied ((splitLines text.toList).map Line.read)

/-- A line that can be read back: its text stays on the line and does not start with a blank. -/
structure Line.Legible (line : Line) : Prop where
  unbroken : '\n' ∉ line.text.toList
  flush : line.text.toList.head? ≠ some ' '

private theorem splitLines_ne_nil {text : List Char} (occupied : text ≠ []) : splitLines text ≠
    [] := by
  cases text with
  | nil => exact absurd rfl occupied
  | cons c rest =>
      unfold splitLines
      split
      · exact List.cons_ne_nil _ _
      · split <;> exact List.cons_ne_nil _ _

/-- Cutting a text after a line break cuts its list of lines. -/
theorem splitLines_append (first second : List Char) :
    splitLines (first ++ '\n' :: second) = splitLines (first ++ ['\n']) ++ splitLines second := by
  induction first with
  | nil => simp [splitLines]
  | cons c first ih =>
      simp only [List.cons_append, splitLines, ih]
      by_cases ends : c = '\n'
      · simp only [ends, ↓reduceIte, List.cons_append]
      · simp only [ends, ↓reduceIte]
        -- the first part still holds its own line break, so `c` joins a line of that part
        cases lines : splitLines (first ++ ['\n']) with
        | nil => exact absurd lines (splitLines_ne_nil (by simp))
        | cons line rest => rfl

private theorem splitLines_of_unbroken {line : List Char} (unbroken : '\n' ∉ line) :
    splitLines (line ++ ['\n']) = [line] := by
  induction line with
  | nil => rfl
  | cons c line ih =>
      rw [List.mem_cons, not_or] at unbroken
      simp only [List.cons_append, splitLines, ih unbroken.2, Ne.symm unbroken.1, ↓reduceIte]

/-- Of joined lines, those of each part are kept. -/
@[simp] theorem occupied_append (first second : List Line) :
    occupied (first ++ second) = occupied first ++ occupied second :=
  List.filter_append _ _

/-- A line that is not empty is kept. -/
theorem occupied_cons {line : Line} (written : line.text ≠ "") (lines : List Line) :
    occupied (line :: lines) = line :: occupied lines := by
  simp [occupied, written]

/-- Depth does not matter to which lines are kept. -/
@[simp] theorem occupied_deeper (lines : List Line) :
    occupied (deeper lines) = deeper (occupied lines) := by
  induction lines with
  | nil => rfl
  | cons line lines ih =>
      by_cases empty : line.text = ""
      · simpa [occupied, deeper, Line.deeper, empty] using ih
      · have below : line.deeper.text ≠ "" := empty
        rw [deeper_cons, occupied_cons below, occupied_cons empty, deeper_cons, ih]

/-- A block with a header keeps it, and of its body what is not empty. -/
theorem occupied_block {header : String} (written : header ≠ "") (body : List Line) :
    occupied (block header body) = plain header :: deeper (occupied body) := by
  have opens : (plain header).text ≠ "" := written
  rw [block, occupied_cons opens, occupied_deeper]

/-- The blanks of the levels come off one level at a time. -/
theorem Line.read_indented (depth : Nat) {text : List Char} (flush : text.head? ≠ some ' ') :
    Line.read ((List.replicate depth indent).flatMap String.toList ++ text) =
      ⟨depth, String.ofList text⟩ := by
  induction depth with
  | zero =>
      unfold Line.read
      split
      · next same => simp_all
      · simp
  | succ depth ih =>
      have blanks : indent.toList = [' ', ' ', ' ', ' '] := rfl
      simp only [List.replicate_succ, List.flatMap_cons, blanks, List.cons_append, List.nil_append,
        Line.read, ih, Line.deeper]

/-- A legible line reads back as it was written. -/
theorem Line.read_render {line : Line} (legible : line.Legible) (occupied : line.text ≠ "") :
    Line.read line.render.toList = line := by
  have written : line.render.toList =
      (List.replicate line.depth indent).flatMap String.toList ++ line.text.toList := by
    simp [Line.render, occupied]
  rw [written, Line.read_indented line.depth legible.flush, String.ofList_toList]

/-- A line of two parts is in one of them. -/
theorem split_append {parts rest before after : List Line} {line : Line}
    (whole : parts ++ rest = before ++ line :: after) :
    (∃ back, parts = before ++ line :: back ∧ after = back ++ rest) ∨
      ∃ front, before = parts ++ front ∧ rest = front ++ line :: after := by
  rcases List.append_eq_append_iff.mp whole with ⟨front, later, shape⟩ | ⟨back, earlier, shape⟩
  · exact .inr ⟨front, later, shape⟩
  · rcases List.cons_eq_append_iff.mp shape with ⟨rfl, head⟩ | ⟨tail, rfl, tails⟩
    · exact .inr ⟨[], by rw [earlier, List.append_nil, List.append_nil], head⟩
    · exact .inl ⟨tail, earlier, tails⟩

/-! ### Laid out lines -/

/-- The lines of a text that ends with a line break and of the text that follows it. -/
theorem codeLines_append (first second : String) :
    codeLines (first ++ "\n" ++ second) = codeLines (first ++ "\n") ++ codeLines second := by
  have whole : (first ++ "\n" ++ second).toList = first.toList ++ '\n' :: second.toList := by
    simp
  have head : (first ++ "\n").toList = first.toList ++ ['\n'] := by simp
  unfold codeLines
  rw [whole, splitLines_append, head, List.map_append, occupied_append]

/-- A legible line is read as itself, or not at all where it is empty. -/
theorem codeLines_render {line : Line} (legible : line.Legible) :
    codeLines (line.render ++ "\n") = occupied [line] := by
  by_cases empty : line.text = ""
  · simp [codeLines, occupied, splitLines, Line.render, Line.read, empty]
  · have unbroken : '\n' ∉ line.render.toList := by
      simp [Line.render, empty, Line.indent, legible.unbroken]
    have single : splitLines (line.render ++ "\n").toList = [line.render.toList] := by
      rw [String.toList_append]
      exact splitLines_of_unbroken unbroken
    simp only [codeLines, single, List.map_cons, List.map_nil, Line.read_render legible empty]

/-- **Lines are read one by one.** The lines of a laid out text are those of its lines in turn. -/
theorem codeLines_layOut_eq_flatMap (lines : List Line) :
    codeLines (layOut lines) = lines.flatMap fun line => codeLines (line.render ++ "\n") := by
  induction lines with
  | nil => rfl
  | cons line rest ih =>
      cases rest with
      | nil => simp [layOut]
      | cons next rest =>
          have cut : layOut (line :: next :: rest) =
              line.render ++ "\n" ++ layOut (next :: rest) := by
            simp [layOut, String.append_assoc]
          rw [cut, codeLines_append, ih]
          rfl

/-- **Reading undoes the layout.** Legible lines are read back, apart from the empty ones. -/
theorem codeLines_layOut {lines : List Line} (legible : ∀ line ∈ lines, line.Legible) :
    codeLines (layOut lines) = occupied lines := by
  rw [codeLines_layOut_eq_flatMap]
  induction lines with
  | nil => rfl
  | cons line rest ih =>
      rw [List.flatMap_cons, codeLines_render (legible line List.mem_cons_self),
        ih fun other member => legible other (List.mem_cons_of_mem _ member)]
      exact (occupied_append [line] rest).symm

/-- Whatever precedes legible lines, they are read back after it. -/
theorem codeLines_layOut_append (before : List Line) {lines : List Line}
    (legible : ∀ line ∈ lines, line.Legible) :
    codeLines (layOut (before ++ lines)) = codeLines (layOut before) ++ occupied lines := by
  rw [codeLines_layOut_eq_flatMap, List.flatMap_append, ← codeLines_layOut_eq_flatMap,
    ← codeLines_layOut_eq_flatMap, codeLines_layOut legible]

/-! ### Blocks -/

/-- The lines after the last one that equals `header`. -/
def afterLast (header : Line) : List Line → Option (List Line)
  | [] => none
  | line :: rest =>
      match afterLast header rest with
      | some tail => some tail
      | none => if line = header then some rest else none

/-- The lines below the last header of this form, as far as they stand deeper than it. -/
def blockUnder (header : Line) (lines : List Line) : List Line :=
  match afterLast header lines with
  | none => []
  | some tail => tail.takeWhile (header.depth < ·.depth)

private theorem afterLast_eq_none {header : Line} {lines : List Line} (absent : header ∉ lines) :
    afterLast header lines = none := by
  induction lines with
  | nil => rfl
  | cons line rest ih =>
      rw [List.mem_cons, not_or] at absent
      simp only [afterLast, ih absent.2, Ne.symm absent.1, ↓reduceIte]

private theorem afterLast_eq_some (before : List Line) {header : Line} {tail : List Line}
    (absent : header ∉ tail) : afterLast header (before ++ header :: tail) = some tail := by
  induction before with
  | nil => simp only [List.nil_append, afterLast, afterLast_eq_none absent, ↓reduceIte]
  | cons line before ih => simp only [List.cons_append, afterLast, ih]

/-- The one line of a block at its own depth is its header. -/
theorem mem_block {text header : String} {body : List Line} :
    plain text ∈ block header body ↔ text = header := by
  have shallow : plain text ∉ deeper body := by
    intro member
    obtain ⟨line, -, same⟩ := List.mem_map.mp member
    exact absurd (congrArg Line.depth same) (Nat.succ_ne_zero _)
  rw [block, List.mem_cons, or_iff_left shallow]
  exact ⟨congrArg Line.text, congrArg plain⟩

/-- What holds of the header and of the body holds of the block. -/
theorem forall_mem_block {holds : String → Prop} {header : String} {body : List Line}
    (head : holds header) (below : ∀ line ∈ body, holds line.text) :
    ∀ line ∈ block header body, holds line.text := by
  intro line inside
  rcases List.mem_cons.mp inside with rfl | deep
  · exact head
  · obtain ⟨shallow, listed, rfl⟩ := List.mem_map.mp deep
    exact below shallow listed

/-- **A block is found by its header.** The body of a block stands deeper than its header, and what
follows it does not start deeper; the header does not occur again. -/
theorem blockUnder_eq (before : List Line) {header : Line} {body after : List Line}
    (deeper : ∀ line ∈ body, header.depth < line.depth) (absent : header ∉ after)
    (ends : ∀ line ∈ after.head?, line.depth ≤ header.depth) :
    blockUnder header (before ++ header :: (body ++ after)) = body := by
  have outside : header ∉ body ++ after := by
    rw [List.mem_append, not_or]
    exact ⟨fun member => Nat.lt_irrefl _ (deeper header member), absent⟩
  have stops : after.takeWhile (header.depth < ·.depth) = [] := by
    cases after with
    | nil => rfl
    | cons line rest =>
        have shallow : ¬ header.depth < line.depth := Nat.not_lt.mpr (ends line rfl)
        simp only [List.takeWhile_cons, shallow, decide_false, Bool.false_eq_true, ↓reduceIte]
  simp only [blockUnder, afterLast_eq_some before outside]
  rw [List.takeWhile_append_of_pos (by simpa using deeper), stops, List.append_nil]

end Wireform.Backend
