import Mathlib.Data.List.Chain
import Std.Data.String.ToNat
import Wireform.Proofs.Backend.Fields
import Wireform.Proofs.Backend.FramedWords

/-! # Suites of generated Python classes

A line that ends in a colon is followed by a suite, whose lines stand one level deeper. Lines with
their suites are `Wireform.Backend.Suite` below the headers around them. Such lines follow each
other as the layout of the language demands (`Wireform.Backend.Suite.layered`), and the headers
around a line can be found again by their depths, from the line upwards
(`Wireform.Backend.ancestors`).

Every line of a suite knows the headers around it: it has subscripts only of levels that one of them
counts in the same method. So each of these loops is found among the ancestors of the line
(`Wireform.Backend.Suite.counted_ancestors`).
-/

namespace Wireform.Backend

/-! ### Reading lines -/

/-- Whether a text ends in a colon. -/
def endsInColon (text : String) : Bool := text.toList.getLast? == some ':'

/-- How a line that is not empty can follow another: one level deeper below a line that ends in a
colon, and otherwise no deeper. -/
def Follows (first second : Line) : Prop :=
  if endsInColon first.text then second.depth = first.depth + 1 else second.depth ≤ first.depth

/-- The nearest line that stands less deep, the nearest that stands less deep than that, and so on.
The lines are given from the nearest on. -/
def shallower (depth : Nat) : List Line → List Line
  | [] => []
  | line :: earlier =>
      if line.depth < depth then line :: shallower line.depth earlier
      else shallower depth earlier

/-- The headers of the suites around a line of some depth, the innermost first. -/
def ancestors (before : List Line) (depth : Nat) : List Line := shallower depth before.reverse

/-- Whether a text has the subscript of a level. -/
def HasSubscript (level : Nat) (text : String) : Prop :=
  ("[d" ++ toString level ++ "]").toList <:+: text.toList

/-- Whether a line opens the loop that counts a level. -/
def CountsLevel (level : Nat) (text : String) : Prop :=
  ("for d" ++ toString level ++ " in range(").toList <+: text.toList

/-- Whether a line opens a method. -/
def isMethodHeader (text : String) : Bool := "def ".toList.isPrefixOf text.toList

/-- Whether a text appends to the list of a level. -/
def HasAppend (level : Nat) (text : String) : Prop :=
  ("_t" ++ toString level ++ ".append(").toList <:+: text.toList

/-! ### Words of lines -/

/-- The characters around a subscript, and those in it. -/
def subscriptFrame : Frame where
  opens c := c == '['
  inner c := c == 'd' || c.isDigit
  closes c := c == ']'
  starts c opens := by
    obtain rfl := beq_iff_eq.mp opens
    rfl
  stops c closes := by
    obtain rfl := beq_iff_eq.mp closes
    rfl

/-- The characters around the name of a method that is called. The names that matter have the
letters of one name. -/
def callFrame : Frame where
  opens c := c == '.'
  inner c := c == 'a' || c == 'p' || c == 'e' || c == 'n' || c == 'd'
  closes c := c == '('
  starts c opens := by
    obtain rfl := beq_iff_eq.mp opens
    rfl
  stops c closes := by
    obtain rfl := beq_iff_eq.mp closes
    rfl

/-- Whether one of the headers in a method counts a level. -/
def Counted (scope : List String) (level : Nat) : Prop :=
  ∃ inner method outer, scope = inner ++ method :: outer ∧ isMethodHeader method = true ∧
    (∀ header ∈ inner, isMethodHeader header = false) ∧ ∃ header ∈ inner, CountsLevel level header

/-- Whether headers stand in a method. -/
def InMethod (scope : List String) : Prop :=
  ∃ inner method outer, scope = inner ++ method :: outer ∧ isMethodHeader method = true ∧
    ∀ header ∈ inner, isMethodHeader header = false

section Scopes

variable {scope : List String} {header : String} (other : isMethodHeader header = false)
include other

/-- One more header stays in the method. -/
theorem InMethod.cons (within : InMethod scope) : InMethod (header :: scope) := by
  obtain ⟨inner, method, outer, rfl, opens, none⟩ := within
  exact ⟨header :: inner, method, outer, rfl, opens, List.forall_mem_cons.mpr ⟨other, none⟩⟩

/-- One more header counts all that was counted. -/
theorem Counted.cons {level : Nat} (counted : Counted scope level) :
    Counted (header :: scope) level := by
  obtain ⟨inner, method, outer, rfl, opens, none, loop, listed, counts⟩ := counted
  exact ⟨header :: inner, method, outer, rfl, opens, List.forall_mem_cons.mpr ⟨other, none⟩,
    loop, List.mem_cons_of_mem _ listed, counts⟩

/-- A level is counted below its own loop. -/
theorem InMethod.counted {level : Nat} (within : InMethod scope)
    (counts : CountsLevel level header) : Counted (header :: scope) level := by
  obtain ⟨inner, method, outer, rfl, opens, none⟩ := within
  exact ⟨header :: inner, method, outer, rfl, opens, List.forall_mem_cons.mpr ⟨other, none⟩,
    header, List.mem_cons_self, counts⟩

end Scopes

/-- A word that may stand in brackets below some headers: the variable of a level that one of them
counts, or no such variable. -/
def IsCounted (scope : List String) (word : List Char) : Prop :=
  ∀ level, word = ("d" ++ toString level).toList → Counted scope level

/-- A call of any method but the one that appends. -/
def IsOtherCall (word : List Char) : Prop := word ≠ ['a', 'p', 'p', 'e', 'n', 'd']

/-- The characters of the variable of a level are those of framed words. -/
theorem inner_of_mem_variable {level : Nat} {c : Char}
    (member : c ∈ ("d" ++ toString level).toList) : subscriptFrame.inner c = true := by
  rw [String.toList_append, List.mem_append] at member
  rcases member with letter | digit
  · obtain rfl := List.mem_singleton.mp letter
    rfl
  · simp [subscriptFrame, isDigit_of_mem_toString digit]

private theorem counted_of_hasSubscript {scope : List String} {text : String} {level : Nat}
    (bound : subscriptFrame.Fits (IsCounted scope) text) (found : HasSubscript level text) :
    Counted scope level := by
  have marked : '[' :: (("d" ++ toString level).toList ++ [']']) <:+: text.toList := by
    simpa [HasSubscript] using found
  have framed := Frame.mem_words_of_infix rfl (fun _ => inner_of_mem_variable) rfl marked
  exact bound _ framed level rfl

/-- A text whose calls are all others appends to no list. -/
theorem not_hasAppend_of_fits {text : String} (calm : callFrame.Fits IsOtherCall text)
    (level : Nat) : ¬ HasAppend level text := by
  intro found
  have call : '.' :: (['a', 'p', 'p', 'e', 'n', 'd'] ++ ['(']) <:+:
      ("_t" ++ toString level ++ ".append(").toList :=
    ⟨("_t" ++ toString level).toList, [], by simp⟩
  have inner : ∀ c ∈ ['a', 'p', 'p', 'e', 'n', 'd'], callFrame.inner c = true :=
    List.all_eq_true.mp (by decide)
  exact calm _ (Frame.mem_words_of_infix rfl inner rfl (call.trans found)) rfl

/-- A text without one of the marks of appending appends to no list. -/
theorem not_hasAppend_of_not_mem {text : String} {c : Char}
    (marks : c = '_' ∨ c = '.' ∨ c = '(') (absent : c ∉ text.toList) (level : Nat) :
    ¬ HasAppend level text := by
  intro found
  have part : c ∈ ("_t" ++ toString level ++ ".append(").toList := by
    rcases marks with rfl | rfl | rfl <;> simp
  exact absent (found.subset part)

/-! ### Suites -/

/-- A line that may stand below some headers. A quiet line appends to no list. -/
structure Stands (quiet : Bool) (scope : List String) (text : String) : Prop where
  written : text ≠ ""
  bound : subscriptFrame.Fits (IsCounted scope) text
  calm : quiet = true → ∀ level, ¬ HasAppend level text

/-- Lines with their suites, below the headers around them. -/
inductive Suite (quiet : Bool) : Nat → List String → List Line → Prop
  | nil {depth scope} : Suite quiet depth scope []
  | blank {depth scope rest} {level : Nat} (later : Suite quiet depth scope rest) :
      Suite quiet depth scope (⟨level, ""⟩ :: rest)
  | line {depth scope text rest} (stands : Stands quiet scope text)
      (ends : endsInColon text = false) (later : Suite quiet depth scope rest) :
      Suite quiet depth scope (⟨depth, text⟩ :: rest)
  | block {depth scope header body rest} (stands : Stands quiet scope header)
      (opens : endsInColon header = true) (filled : occupied body ≠ [])
      (inside : Suite quiet (depth + 1) (header :: scope) body)
      (later : Suite quiet depth scope rest) :
      Suite quiet depth scope (⟨depth, header⟩ :: (body ++ rest))

/-- Lines from a depth on that follow each other, and leave no suite out. -/
structure Layered (depth : Nat) (lines : List Line) : Prop where
  follow : lines.IsChain Follows
  starts : ∀ line ∈ lines.head?, line.depth = depth
  ends : ∀ line ∈ lines.getLast?, endsInColon line.text = false
  deep : ∀ line ∈ lines, depth ≤ line.depth

namespace Layered

variable {depth : Nat} {first second : List Line}

private theorem nil : Layered depth [] := ⟨.nil, nofun, nofun, List.forall_mem_nil _⟩

private theorem single {text : String} (ends : endsInColon text = false) :
    Layered depth [⟨depth, text⟩] := by
  refine ⟨.singleton _, ?_, ?_, List.forall_mem_singleton.mpr (Nat.le_refl _)⟩
  · intro line found
    obtain rfl := Option.some.inj found
    rfl
  · intro line found
    obtain rfl := Option.some.inj found
    exact ends

private theorem append (left : Layered depth first) (right : Layered depth second) :
    Layered depth (first ++ second) := by
  refine ⟨List.isChain_append.mpr ⟨left.follow, right.follow, ?_⟩, ?_, ?_,
    List.forall_mem_append.mpr ⟨left.deep, right.deep⟩⟩
  · intro last lastOf next nextOf
    rw [Follows, left.ends last lastOf, right.starts next nextOf]
    exact left.deep last (List.mem_of_getLast? lastOf)
  · intro line found
    rw [List.head?_append] at found
    cases start : first.head? with
    | none => exact right.starts line (by simpa [start] using found)
    | some c => exact left.starts line (by simpa [start] using found)
  · intro line found
    rw [List.getLast?_append] at found
    cases final : second.getLast? with
    | none => exact left.ends line (by simpa [final] using found)
    | some c => exact right.ends line (by simpa [final] using found)

/-- A header over lines one level deeper. -/
theorem block {header : String} {body : List Line} (opens : endsInColon header = true)
    (filled : body ≠ []) (inside : Layered (depth + 1) body) :
    Layered depth (⟨depth, header⟩ :: body) := by
  obtain ⟨next, rest, rfl⟩ := List.exists_cons_of_ne_nil filled
  have below : Follows ⟨depth, header⟩ next := by
    rw [Follows, if_pos opens]
    exact inside.starts next rfl
  refine ⟨List.isChain_cons_cons.mpr ⟨below, inside.follow⟩, ?_, ?_, ?_⟩
  · intro line found
    obtain rfl := Option.some.inj found
    rfl
  · rw [List.getLast?_cons_cons]
    exact inside.ends
  · exact List.forall_mem_cons.mpr ⟨Nat.le_refl _, fun line member =>
      Nat.le_of_succ_le (inside.deep line member)⟩

end Layered

/-! ### Ancestors -/

private theorem shallower_append_of_le {depth : Nat} {lines : List Line}
    (deep : ∀ line ∈ lines, depth ≤ line.depth) (earlier : List Line) :
    shallower depth (lines ++ earlier) = shallower depth earlier := by
  induction lines with
  | nil => rfl
  | cons line lines ih =>
      obtain ⟨here, later⟩ := List.forall_mem_cons.mp deep
      rw [List.cons_append, shallower, if_neg (Nat.not_lt.mpr here), ih later]

/-- Lines that stand as deep are passed over. -/
theorem ancestors_append_of_le {depth : Nat} (before : List Line) {lines : List Line}
    (deep : ∀ line ∈ lines, depth ≤ line.depth) :
    ancestors (before ++ lines) depth = ancestors before depth := by
  rw [ancestors, List.reverse_append, shallower_append_of_le]
  · rfl
  · exact fun line member => deep line (List.mem_reverse.mp member)

/-- A line has the header right above it as the first ancestor. -/
theorem ancestors_append_header (before : List Line) (header : Line) :
    ancestors (before ++ [header]) (header.depth + 1) =
      header :: ancestors before header.depth := by
  rw [ancestors, List.reverse_append, List.reverse_singleton, List.singleton_append, shallower,
    if_pos (Nat.lt_succ_self _)]
  rfl

namespace Suite

variable {quiet : Bool} {depth : Nat} {scope : List String} {lines first second : List Line}

/-- Suites at one depth may follow each other. -/
theorem append (left : Suite quiet depth scope first) (right : Suite quiet depth scope second) :
    Suite quiet depth scope (first ++ second) := by
  induction left with
  | nil => exact right
  | blank _ ih => exact .blank (ih right)
  | line stands ends _ ih => exact .line stands ends (ih right)
  | block stands opens filled inside _ _ ih =>
      rw [List.cons_append, List.append_assoc]
      exact .block stands opens filled inside (ih right)

/-- A suite may stand deeper. -/
theorem deeper (nested : Suite quiet depth scope lines) :
    Suite quiet (depth + 1) scope (deeper lines) := by
  induction nested with
  | nil => exact .nil
  | blank _ ih => exact .blank ih
  | line stands ends _ ih => exact .line stands ends ih
  | block stands opens filled _ _ inner outer =>
      rw [deeper_cons, deeper_append]
      refine .block stands opens ?_ inner outer
      rw [occupied_deeper]
      exact fun none => filled (List.map_eq_nil_iff.mp none)

/-- Suites at one depth make a suite. -/
theorem flatten {parts : List (List Line)}
    (each : ∀ part ∈ parts, Suite quiet depth scope part) :
    Suite quiet depth scope parts.flatten := by
  induction parts with
  | nil => exact .nil
  | cons part parts ih =>
      obtain ⟨here, later⟩ := List.forall_mem_cons.mp each
      exact here.append (ih later)

/-- A quiet suite appends to no list. -/
theorem calm (nested : Suite true depth scope lines) :
    ∀ line ∈ lines, ∀ level, ¬ HasAppend level line.text := by
  induction nested with
  | nil => exact List.forall_mem_nil _
  | blank _ ih =>
      exact List.forall_mem_cons.mpr ⟨not_hasAppend_of_not_mem (.inl rfl) List.not_mem_nil, ih⟩
  | line stands _ _ ih => exact List.forall_mem_cons.mpr ⟨stands.calm rfl, ih⟩
  | block stands _ _ _ _ inner outer =>
      exact List.forall_mem_cons.mpr
        ⟨stands.calm rfl, List.forall_mem_append.mpr ⟨inner, outer⟩⟩

private theorem occupied_line {text : String} (written : text ≠ "") (rest : List Line) :
    occupied (⟨depth, text⟩ :: rest) = ⟨depth, text⟩ :: occupied rest :=
  occupied_cons written rest

/-- **Suites are laid out.** Apart from empty lines, every header is followed by a deeper line, and
every other line by one that is no deeper. -/
theorem layered (nested : Suite quiet depth scope lines) : Layered depth (occupied lines) := by
  induction nested with
  | nil => exact .nil
  | blank _ ih => exact ih
  | line stands ends _ ih =>
      rw [occupied_line stands.written]
      exact (Layered.single ends).append ih
  | block stands opens filled _ _ inner outer =>
      rw [occupied_line stands.written, occupied_append, ← List.cons_append]
      exact (Layered.block opens filled inner).append outer

/-- **A subscript stands in the loop that counts its level**, in the same method. -/
theorem counted_ancestors (nested : Suite quiet depth scope lines) {prior : List Line}
    (around : (ancestors prior depth).map Line.text = scope) {before after : List Line}
    {line : Line} (shape : occupied lines = before ++ line :: after) {level : Nat}
    (found : HasSubscript level line.text) :
    Counted ((ancestors (prior ++ before) line.depth).map Line.text) level := by
  induction nested generalizing prior before after with
  | nil => cases before <;> cases shape
  | blank _ ih => exact ih around shape
  | line stands _ _ ih =>
      rw [occupied_line stands.written] at shape
      cases before with
      | nil =>
          obtain ⟨rfl, -⟩ := List.cons.inj shape
          rw [List.append_nil, around]
          exact counted_of_hasSubscript stands.bound found
      | cons first before =>
          obtain ⟨rfl, tail⟩ := List.cons.inj shape
          rw [List.append_cons]
          refine ih ?_ tail
          rw [ancestors_append_of_le prior (List.forall_mem_singleton.mpr (Nat.le_refl _)), around]
  | @block depth scope header body rest stands opens filled inside later inner outer =>
      rw [occupied_line stands.written, occupied_append] at shape
      cases before with
      | nil =>
          obtain ⟨rfl, -⟩ := List.cons.inj shape
          rw [List.append_nil, around]
          exact counted_of_hasSubscript stands.bound found
      | cons first before =>
          obtain ⟨rfl, tail⟩ := List.cons.inj shape
          rcases split_append tail with ⟨back, own, -⟩ | ⟨front, rfl, beyond⟩
          · rw [List.append_cons]
            refine inner ?_ own
            rw [ancestors_append_header prior ⟨depth, header⟩, List.map_cons, around]
          · -- what follows the suite sees the headers that were there before it
            have deep : ∀ line ∈ ⟨depth, header⟩ :: occupied body, depth ≤ line.depth :=
              (Layered.block opens filled inside.layered).deep
            rw [← List.cons_append, ← List.append_assoc]
            refine outer ?_ beyond
            rw [ancestors_append_of_le prior deep, around]

end Suite

/-! ### Lists that are filled -/

/-- The line that starts the list of a level. -/
def listStart (level : Nat) : String := "_t" ++ toString level ++ " = []"

/-- A line that appends to a list comes after the one that starts it, and no line between them
stands less deep. -/
def StartedBefore (before : List Line) (line : Line) (level : Nat) : Prop :=
  ∃ outer start inner, before = outer ++ start :: inner ∧ start.text = listStart level ∧
    ∀ between ∈ inner ++ [line], start.depth ≤ between.depth

/-- Lines that append to no list but those they start before, and some that are there already. -/
def Fills (started : List Nat) (lines : List Line) : Prop :=
  ∀ before line after, lines = before ++ line :: after → ∀ level, HasAppend level line.text →
    level ∈ started ∨ StartedBefore before line level

namespace Fills

variable {started : List Nat} {lines first second : List Line}

/-- Lines that append to nothing fill whatever is started. -/
theorem of_calm (calm : ∀ line ∈ lines, ∀ level, ¬ HasAppend level line.text) :
    Fills started lines := by
  rintro before line after rfl level found
  exact absurd found (calm line (List.mem_append_right _ List.mem_cons_self) level)

/-- Lines that fill what is started may follow each other. -/
theorem append (left : Fills started first) (right : Fills started second) :
    Fills started (first ++ second) := by
  intro before line after shape level found
  rcases split_append shape with ⟨back, own, -⟩ | ⟨front, rfl, beyond⟩
  · exact left before line back own level found
  · refine (right front line after beyond level found).imp_right ?_
    rintro ⟨outer, start, inner, rfl, starts, deep⟩
    exact ⟨first ++ outer, start, inner, by simp, starts, deep⟩

private theorem deeper (fills : Fills started lines) : Fills started (deeper lines) := by
  intro before line after shape level found
  obtain ⟨before, rest, rfl, rfl, behind⟩ := List.map_eq_append_iff.mp shape
  obtain ⟨line, after, rfl, rfl, rfl⟩ := List.map_eq_cons_iff.mp behind
  refine (fills before line after rfl level found).imp_right ?_
  rintro ⟨outer, start, inner, rfl, starts, deep⟩
  refine ⟨Backend.deeper outer, start.deeper, Backend.deeper inner, by simp [Backend.deeper],
    starts, ?_⟩
  intro between member
  have same : Backend.deeper inner ++ [line.deeper] = Backend.deeper (inner ++ [line]) := by simp
  rw [same] at member
  obtain ⟨shallow, present, rfl⟩ := List.mem_map.mp member
  exact Nat.succ_le_succ (deep shallow present)

/-- A block fills what is started where its body does. -/
theorem block {header : String} {body : List Line}
    (calm : ∀ level, ¬ HasAppend level header) (fills : Fills started body) :
    Fills started (block header body) :=
  append (of_calm (List.forall_mem_singleton.mpr calm) : Fills started [plain header]) fills.deeper

/-- A list may be filled from the line on that starts it. -/
theorem start {level : Nat} (fills : Fills (level :: started) lines) :
    Fills started (plain (listStart level) :: lines) := by
  intro before line after shape other found
  cases before with
  | nil =>
      obtain ⟨rfl, -⟩ := List.cons.inj shape
      have digits := not_mem_toString_dot level
      have undotted : '.' ∉ (listStart level).toList := by simpa [listStart] using digits
      exact absurd found (not_hasAppend_of_not_mem (.inr (.inl rfl)) undotted other)
  | cons first before =>
      obtain ⟨rfl, tail⟩ := List.cons.inj shape
      rcases fills before line after tail other found with known | earlier
      · rcases List.mem_cons.mp known with rfl | known
        · exact .inr ⟨[], _, before, rfl, rfl, fun _ _ => Nat.zero_le _⟩
        · exact .inl known
      · obtain ⟨outer, start, inner, rfl, starts, deep⟩ := earlier
        exact .inr ⟨plain (listStart level) :: outer, start, inner, rfl, starts, deep⟩

/-- A line that appends to the list of a level appends to no other. -/
theorem level_of_hasAppend {level other : Nat} {value : String} (undotted : '.' ∉ value.toList)
    (found : HasAppend other ("_t" ++ toString level ++ ".append(" ++ value ++ ")")) :
    other = level := by
  obtain ⟨before, after, shape⟩ := found
  have digits := not_mem_toString_dot level
  have whole : '_' :: 't' :: (toString level).toList ++ '.' :: ("append(" ++ value ++ ")").toList =
      (before ++ '_' :: 't' :: (toString other).toList) ++ '.' :: ("append(".toList ++ after) := by
    simpa using shape.symm
  obtain ⟨names, -⟩ := (List.append_cons_inj_of_notMem (by simpa using digits)
    (by simpa using undotted)).mp whole
  have letters : '_' ∉ 't' :: (toString level).toList := by
    have figures : '_' ∉ (toString level).toList :=
      fun member => absurd (isDigit_of_mem_toString member) (by decide)
    rw [List.mem_cons, not_or]
    exact ⟨by decide, figures⟩
  have first : [] ++ '_' :: 't' :: (toString level).toList =
      before ++ '_' :: 't' :: (toString other).toList := names
  obtain ⟨-, -, same⟩ := (List.append_cons_inj_of_notMem List.not_mem_nil letters).mp first
  exact Nat.repr_inj.mp (String.toList_inj.mp (List.cons.inj same).2.symm)

/-- A value may be appended to a list that is started. -/
theorem add {level : Nat} {value : String} (undotted : '.' ∉ value.toList)
    (known : level ∈ started) :
    Fills started [plain ("_t" ++ toString level ++ ".append(" ++ value ++ ")")] := by
  intro before line after shape other found
  have listed : line ∈ [plain ("_t" ++ toString level ++ ".append(" ++ value ++ ")")] :=
    shape ▸ List.mem_append_right _ List.mem_cons_self
  obtain rfl := List.mem_singleton.mp listed
  exact .inl (level_of_hasAppend undotted found ▸ known)

end Fills

end Wireform.Backend
