import Wireform.Proofs.Backend.PythonSuites
import Wireform.Proofs.Backend.PythonText

/-! # Nesting of generated Python codecs

The steps of a generated class are suites: below the loops of a member, each of which counts its
level, an element has the subscripts of these levels (`Wireform.Backend.suite_checkedLoops`), and
the lists of a decoded member are filled from the innermost on
(`Wireform.Backend.suite_fillingLoops`). A step of the encoder or of the size needs no list
(`Wireform.Backend.suite_encodeStep`, `Wireform.Backend.suite_sizeStep`); a step of the decoder
appends only to lists that it started before (`Wireform.Backend.fills_decodeStep`).

A line is put together from tame parts, which have no words that matter and can follow any text
(`Wireform.Backend.Tame`); an element is tame below the loops that count its levels.
-/

namespace Wireform.Backend

/-! ### Parts of lines -/

/-- A text that may follow any other below some headers. -/
structure Tame (scope : List String) (text : String) : Prop where
  subscripts : subscriptFrame.Quiet (IsCounted scope) text
  calls : callFrame.Quiet IsOtherCall text

/-- Whether fixed words may follow any others. -/
def isTame (chars : List Char) : Bool :=
  (subscriptFrame.words chars).all (·.head? != some 'd') && !subscriptFrame.closesFirst chars &&
    ((callFrame.words chars).all (· != ['a', 'p', 'p', 'e', 'n', 'd']) &&
      !callFrame.closesFirst chars)

section Parts

variable {scope : List String}

/-- Tame texts make a tame text. -/
theorem Tame.append {first second : String} (left : Tame scope first) (right : Tame scope second) :
    Tame scope (first ++ second) :=
  ⟨left.subscripts.append right.subscripts, left.calls.append right.calls⟩

/-- Fixed words have no subscripts of levels. -/
theorem counted_ofList {chars : List Char}
    (checked : (subscriptFrame.words chars).all (·.head? != some 'd') = true) :
    subscriptFrame.Fits (IsCounted scope) (String.ofList chars) := by
  intro word found level same
  rw [String.toList_ofList] at found
  have plain := List.all_eq_true.mp checked word found
  rw [same] at plain
  simp at plain

/-- Fixed characters are checked by evaluation. -/
theorem Tame.ofList {chars : List Char} (checked : isTame chars = true) :
    Tame scope (String.ofList chars) := by
  obtain ⟨left, right⟩ := Bool.and_eq_true_iff.mp checked
  obtain ⟨words, unclosed⟩ := Bool.and_eq_true_iff.mp left
  obtain ⟨names, uncalled⟩ := Bool.and_eq_true_iff.mp right
  refine ⟨⟨counted_ofList words, ?_⟩, ⟨fun word found => ?_, ?_⟩⟩
  · rw [String.toList_ofList]
    exact (Bool.not_eq_true' _).mp unclosed
  · rw [String.toList_ofList] at found
    exact bne_iff_ne.mp (List.all_eq_true.mp names word found)
  · rw [String.toList_ofList]
    exact (Bool.not_eq_true' _).mp uncalled

/-- A text that closes neither brackets nor names of methods. -/
theorem Tame.of_not_mem {text : String} (bracket : ']' ∉ text.toList) (call : '(' ∉ text.toList) :
    Tame scope text := by
  constructor
  · refine Frame.quiet_of_forall fun c member => beq_eq_false_iff_ne.mpr ?_
    rintro rfl
    exact bracket member
  · refine Frame.quiet_of_forall fun c member => beq_eq_false_iff_ne.mpr ?_
    rintro rfl
    exact call member

/-- A text is tame where its characters exclude the closing bracket and the call. -/
theorem Tame.of_forall {text : String} {holds : Char → Prop} (chars : ∀ c ∈ text.toList, holds c)
    (bracket : ¬ holds ']') (call : ¬ holds '(') : Tame scope text :=
  .of_not_mem (fun member => bracket (chars _ member)) (fun member => call (chars _ member))

/-- Dotted names are tame. -/
theorem Tame.dotted {name : String} (dotted : Source.Dotted name) : Tame scope name :=
  .of_forall dotted (by decide) (by decide)

/-- Class names are tame. -/
theorem Tame.flatName {name : String} (dotted : Source.Dotted name) : Tame scope (flatName name) :=
  .of_not_mem (not_mem_flatName dotted rfl) (not_mem_flatName dotted rfl)

/-- Numerals of the library are tame. -/
theorem Tame.toString (n : Nat) : Tame scope (toString n) :=
  .of_forall (fun _ member => isDigit_of_mem_toString member) (by decide) (by decide)

/-- Written numbers are tame. -/
theorem Tame.write {value : Int} {text : String} (written : Numeral.write value = .ok text) :
    Tame scope text :=
  .of_forall (fun _ member => isDigit_or_sign_of_write written member) (by decide) (by decide)

private theorem Tame.packer {p : Primitive} {name : String} (packed : packer? p = some name) :
    Tame scope name := by
  cases p <;> cases packed <;> exact .ofList (by decide)

private theorem Tame.extentText {owner text : String} (tame : Tame scope owner)
    {dimension : Dimension}
    (read : dimension.Written) (written : extentText owner dimension = .ok text) :
    Tame scope text := by
  rcases extentText_cases written with ⟨-, value, -, numeral⟩ | ⟨dynamic, rfl⟩
  · exact .write numeral
  · exact (tame.append (.ofList rfl)).append (.dotted (read.dotted dynamic))

/-! ### Elements -/

/-- The subscript of a counted level. -/
theorem anchored_subscript {level : Nat} (counted : Counted scope level) :
    subscriptFrame.Anchored (IsCounted scope) ("[d" ++ toString level ++ "]") := by
  have whole : ("[d" ++ toString level ++ "]").toList =
      '[' :: (("d" ++ toString level).toList ++ [']']) := by
    simp
  have words : subscriptFrame.words ("[d" ++ toString level ++ "]").toList =
      [("d" ++ toString level).toList] := by
    rw [whole]
    exact Frame.words_cons_append_cons rfl (fun _ => inner_of_mem_variable) rfl rfl []
  refine ⟨⟨?_, ?_⟩, ⟨?_, ?_⟩⟩
  · intro word found other same
    rw [words] at found
    obtain rfl := List.mem_singleton.mp found
    rw [String.toList_append, String.toList_append] at same
    have digits : toString level = toString other :=
      String.toList_inj.mp (List.append_cancel_left same)
    rwa [← Nat.repr_inj.mp digits]
  · rw [String.toList_append, Frame.leavesOpen_append, if_neg (by decide)]
    rfl
  · rw [whole]
    rfl
  · rw [whole]
    simp [subscriptFrame]

/-- The subscripts of counted levels. -/
theorem settled_subscripts {levels : List Nat} (counted : ∀ level ∈ levels, Counted scope level) :
    subscriptFrame.Settled (IsCounted scope)
      (String.join (levels.map fun level => "[d" ++ toString level ++ "]")) := by
  induction levels with
  | nil => exact ⟨nofun, rfl⟩
  | cons level levels ih =>
      obtain ⟨here, later⟩ := List.forall_mem_cons.mp counted
      rw [List.map_cons, String.join_cons]
      exact (anchored_subscript here).toSettled.append (ih later)

private theorem anchored_elementText {owner member : String}
    (outer : subscriptFrame.Anchored (IsCounted scope) owner) (name : Source.Dotted member)
    {depth : Nat} (counted : ∀ level < depth, Counted scope level) :
    subscriptFrame.Anchored (IsCounted scope) (elementText owner member depth) := by
  have dot : subscriptFrame.Settled (IsCounted scope) "." := ⟨counted_ofList rfl, rfl⟩
  have field : subscriptFrame.Skips member := fun c inside =>
    ⟨beq_eq_false_iff_ne.mpr fun same => absurd (name c inside) (same ▸ by decide),
      beq_eq_false_iff_ne.mpr fun same => absurd (name c inside) (same ▸ by decide)⟩
  exact ((outer.append dot).append field.settled).append
    (settled_subscripts fun level listed => counted level (List.mem_range.mp listed))

/-- A name whose attributes are the members of a value. -/
structure Refers (owner : String) : Prop where
  anchored : ∀ scope, subscriptFrame.Anchored (IsCounted scope) owner
  uncalled : '(' ∉ owner.toList

private theorem refers_msg : Refers "msg" :=
  ⟨fun _ => ⟨⟨counted_ofList rfl, rfl⟩, ⟨rfl, by decide⟩⟩, by decide⟩

private theorem refers_self : Refers "self" :=
  ⟨fun _ => ⟨⟨counted_ofList rfl, rfl⟩, ⟨rfl, by decide⟩⟩, by decide⟩

/-- Anchored texts are tame if they call nothing. -/
theorem Tame.of_anchored {text : String}
    (anchored : subscriptFrame.Anchored (IsCounted scope) text) (uncalled : '(' ∉ text.toList) :
    Tame scope text := by
  refine ⟨⟨anchored.fits, anchored.unclosed⟩, Frame.quiet_of_forall fun c inside => ?_⟩
  exact beq_eq_false_iff_ne.mpr fun same => uncalled (same ▸ inside)

private theorem Refers.tame {owner : String} (outer : Refers owner) : Tame scope owner :=
  .of_anchored (outer.anchored scope) outer.uncalled

private theorem Refers.element {owner member : String} (outer : Refers owner)
    (name : Source.Dotted member) {depth : Nat} (counted : ∀ level < depth, Counted scope level) :
    subscriptFrame.Anchored (IsCounted scope) (elementText owner member depth) ∧
      Tame scope (elementText owner member depth) := by
  have anchored := anchored_elementText (outer.anchored scope) name counted
  refine ⟨anchored, .of_anchored anchored fun inside => ?_⟩
  simp only [elementText, String.toList_append, String.toList_join, List.mem_append,
    List.mem_flatMap, List.mem_map] at inside
  rcases inside with ((front | dot) | field) | ⟨text, ⟨level, -, rfl⟩, part⟩
  · exact outer.uncalled front
  · exact absurd dot (by decide)
  · exact absurd (name '(' field) (by decide)
  · simp only [String.toList_append, List.mem_append] at part
    rcases part with (opening | digit) | closing
    · exact absurd opening (by decide)
    · exact absurd (isDigit_of_mem_toString digit) (by decide)
    · exact absurd closing (by decide)

/-! ### Calls -/

/-- The call that writes an element. The brackets around a struct hold no name of a level. -/
theorem encodeCall_parts {type : FieldType} {value call : String}
    (dotted : ∀ name, type = .compound name → Source.Dotted name)
    (anchored : subscriptFrame.Anchored (IsCounted scope) value) (tame : Tame scope value)
    (written : encodeCall type value = .ok call) :
    subscriptFrame.Fits (IsCounted scope) call ∧ callFrame.Quiet IsOtherCall call := by
  rcases encodeCall_cases written with ⟨-, rfl⟩ | ⟨p, packer, -, packed, rfl⟩ | ⟨name, same, rfl⟩
  · have whole : Tame scope ("_encode_string(buf, pos, maxlen, " ++ value ++ ")") :=
      ((Tame.ofList (by decide)).append tame).append (.ofList (by decide))
    exact ⟨whole.subscripts.fits, whole.calls⟩
  · have whole : Tame scope ("_encode_value(buf, pos, maxlen, " ++ packer ++ ", " ++
        value ++ ")") :=
      ((((Tame.ofList (by decide)).append (.packer packed)).append
        (.ofList (by decide))).append tame).append (.ofList (by decide))
    exact ⟨whole.subscripts.fits, whole.calls⟩
  · have opened : Tame scope (flatName name ++ "._encode_nohash(buf, pos, maxlen, [") :=
      (Tame.flatName (dotted name same)).append (.ofList (by decide))
    have closed : callFrame.Quiet IsOtherCall "], 1)" :=
      (Frame.quiet_ofList rfl)
    refine ⟨(opened.subscripts.fits.anchor anchored).then (counted_ofList rfl), ?_⟩
    exact (opened.calls.append tame.calls).append closed

private theorem Tame.decodeCall {type : FieldType} {call : String}
    (dotted : ∀ name, type = .compound name → Source.Dotted name)
    (written : decodeCall type = .ok call) : Tame scope call := by
  rcases decodeCall_cases written with ⟨-, rfl⟩ | ⟨p, packer, -, packed, rfl⟩ | ⟨name, same, rfl⟩
  · exact .ofList (by decide)
  · exact ((Tame.ofList (by decide)).append (.packer packed)).append (.ofList (by decide))
  · exact (Tame.flatName (dotted name same)).append (.ofList (by decide))

private theorem Tame.elementSize {type : FieldType} {width : Option Nat} {value : String}
    (tame : Tame scope value) : Tame scope (elementSize type width value) := by
  unfold Backend.elementSize
  split
  · exact .toString _
  · exact ((Tame.ofList (by decide)).append tame).append (.ofList (by decide))
  · exact tame.append (.ofList (by decide))

end Parts

/-! ### Lines -/

/-- A text ends as its last part does. -/
theorem last_append (first : String) {second : String} {c : Char}
    (ends : second.toList.getLast? = some c) : (first ++ second).toList.getLast? = some c := by
  rw [String.toList_append, List.getLast?_append, ends]
  rfl

/-- Where fixed characters end. -/
theorem last_ofList {chars : List Char} {c : Char} (ends : chars.getLast? = some c) :
    (String.ofList chars).toList.getLast? = some c := by
  rwa [String.toList_ofList]

/-- A text ends as the fixed characters behind it do. -/
theorem last_fixed (first : String) {chars : List Char} {c : Char}
    (ends : chars.getLast? = some c) :
    (first ++ String.ofList chars).toList.getLast? = some c :=
  last_append first (last_ofList ends)

/-- A text with a last character is not empty. -/
theorem ne_empty_of_last {text : String} {c : Char} (ends : text.toList.getLast? = some c) :
    text ≠ "" := by
  rintro rfl
  cases ends

/-- Whether fixed words are a line that opens no suite. -/
def isStatement (chars : List Char) : Bool := isTame chars && chars.getLast?.any (· != ':')

private theorem ne_empty_of_isStatement {chars : List Char} (checked : isStatement chars = true) :
    String.ofList chars ≠ "" := by
  intro empty
  obtain ⟨-, some⟩ := Bool.and_eq_true_iff.mp checked
  obtain rfl : chars = [] := by simpa using empty
  cases some

/-- A tame text stands in any scope. -/
theorem Tame.stands {quiet : Bool} {scope : List String} {text : String} (tame : Tame scope text)
    (written : text ≠ "") : Stands quiet scope text :=
  ⟨written, tame.subscripts.fits, fun _ => not_hasAppend_of_fits tame.calls.fits⟩

namespace Suite

variable {quiet : Bool} {scope : List String} {rest : List Line}

/-- A line that opens no suite. -/
theorem statement {text : String} {c : Char} (ends : text.toList.getLast? = some c)
    (other : c ≠ ':') (stands : text ≠ "" → Stands quiet scope text)
    (later : Suite quiet 0 scope rest) : Suite quiet 0 scope (plain text :: rest) := by
  refine .line (stands (ne_empty_of_last ends)) ?_ later
  rw [endsInColon, ends]
  exact beq_eq_false_iff_ne.mpr fun same => other (Option.some.inj same)

/-- A fixed statement can come before the lines of a suite. -/
theorem fixed {chars : List Char} (checked : isStatement chars = true)
    (later : Suite quiet 0 scope rest) :
    Suite quiet 0 scope (plain (String.ofList chars) :: rest) := by
  obtain ⟨tame, plain⟩ := Bool.and_eq_true_iff.mp checked
  cases ends : chars.getLast? with
  | none =>
      rw [ends] at plain
      cases plain
  | some c =>
      rw [ends] at plain
      exact .statement (last_ofList ends) (bne_iff_ne.mp plain) (Tame.ofList tame).stands later

/-- A header over a body that is not empty. -/
theorem under {header : String} {body : List Line} (ends : header.toList.getLast? = some ':')
    (stands : header ≠ "" → Stands quiet scope header) (filled : ∃ line ∈ body, line.text ≠ "")
    (inside : Suite quiet 0 (header :: scope) body) :
    Suite quiet 0 scope (Backend.block header body) := by
  obtain ⟨line, listed, written⟩ := filled
  have some : occupied (Backend.deeper body) ≠ [] := by
    rw [occupied_deeper]
    intro none
    have kept : line ∈ occupied body := List.mem_filter.mpr ⟨listed, by simpa using written⟩
    rw [List.map_eq_nil_iff.mp none] at kept
    cases kept
  have opens : endsInColon header = true := by rw [endsInColon, ends, beq_self_eq_true]
  have nested := Suite.block (stands (ne_empty_of_last ends)) opens some inside.deeper
    (.nil : Suite quiet 0 scope [])
  rwa [List.append_nil] at nested

/-- Fixed words over a body that is not empty. -/
theorem fixedUnder {chars : List Char} {body : List Line}
    (checked : (isTame chars && chars.getLast? == some ':') = true)
    (filled : ∃ line ∈ body, line.text ≠ "")
    (inside : Suite quiet 0 (String.ofList chars :: scope) body) :
    Suite quiet 0 scope (Backend.block (String.ofList chars) body) := by
  obtain ⟨tame, colon⟩ := Bool.and_eq_true_iff.mp checked
  exact .under (last_ofList (beq_iff_eq.mp colon)) (Tame.ofList tame).stands filled inside

/-- The check for a position that was given up is a suite. -/
theorem positionCheck {fail : List Char} (checked : isStatement fail = true) :
    Suite quiet 0 scope (Backend.block "if pos < 0:" [plain (String.ofList fail)]) :=
  .fixedUnder (by decide) ⟨_, List.mem_cons_self, ne_empty_of_isStatement checked⟩
    (.fixed checked .nil)

end Suite

section Steps

variable {quiet : Bool} {scope : List String}

private theorem isMethodHeader_eq_false {text : String} {c : Char}
    (starts : text.toList.head? = some c)
    (other : c ≠ 'd') : isMethodHeader text = false := by
  obtain ⟨rest, shape⟩ := List.head?_eq_some_iff.mp starts
  simp [isMethodHeader, shape, List.isPrefixOf, Ne.symm other]

/-! ### Loops -/

/-- The header of the loop over a dimension. -/
def loopHeader (level : Nat) (extent : String) : String :=
  "for d" ++ toString level ++ " in range(" ++ extent ++ "):"

private theorem isMethodHeader_loopHeader (level : Nat) (extent : String) :
    isMethodHeader (loopHeader level extent) = false :=
  isMethodHeader_eq_false (head_append (head_append (head_append (head_append
    (head_ofList _ _) _) _) _) _) (by decide)

private theorem countsLevel_loopHeader (level : Nat) (extent : String) :
    CountsLevel level (loopHeader level extent) :=
  ⟨(extent ++ "):").toList, by simp [loopHeader]⟩

private theorem Tame.loopHeader {extent : String} (tame : Tame scope extent) (level : Nat) :
    Tame scope (loopHeader level extent) :=
  Tame.ofList (by decide) |>.append (.toString level) |>.append
    (.ofList (by decide)) |>.append tame |>.append (.ofList (by decide))

/-- Below the loop of a level, the levels before it and its own are counted. -/
theorem counted_loopHeader (within : InMethod scope) {level : Nat}
    (around : ∀ below < level, Counted scope below) (extent : String) :
    ∀ below < level + 1, Counted (loopHeader level extent :: scope) below := by
  have other := isMethodHeader_loopHeader level extent
  intro below under
  rcases Nat.lt_succ_iff_lt_or_eq.mp under with outside | rfl
  · exact (around below outside).cons other
  · exact within.counted other (countsLevel_loopHeader below extent)

private theorem suite_checkedLoops {owner member : String} (outer : Refers owner)
    (name : Source.Dotted member) {fail : Line} (failing : fail.text ≠ "")
    (fails : ∀ scope, Suite quiet 0 scope [fail]) {body lines : List Line}
    (filled : ∃ line ∈ body, line.text ≠ "") {level : Nat} {dimensions : List Dimension}
    (read : ∀ dimension ∈ dimensions, dimension.Written) (within : InMethod scope)
    (around : ∀ below < level, Counted scope below)
    (inside : ∀ scope, InMethod scope →
      (∀ below < level + dimensions.length, Counted scope below) → Suite quiet 0 scope body)
    (written : checkedLoops owner member fail body level dimensions = .ok lines) :
    Suite quiet 0 scope lines ∧ ∃ line ∈ lines, line.text ≠ "" := by
  induction dimensions generalizing level lines scope with
  | nil =>
      obtain rfl := Outcome.pure_eq_ok.mp written
      exact ⟨inside scope within around, filled⟩
  | cons dimension dimensions ih =>
      obtain ⟨here, later⟩ := List.forall_mem_cons.mp read
      obtain ⟨extent, inner, extentWritten, innerWritten, rfl⟩ := checkedLoops_cons_eq_ok written
      have bound : Tame scope extent := outer.tame.extentText here extentWritten
      have check : Tame scope ("if len(" ++ elementText owner member level ++ ") < " ++ extent ++
          ":") :=
        Tame.ofList (by decide) |>.append (outer.element name around).2 |>.append
          (.ofList (by decide)) |>.append bound |>.append (.ofList (by decide))
      have nested := ih later (within.cons (isMethodHeader_loopHeader level extent))
        (counted_loopHeader within around extent)
        (fun scope below counted => inside scope below fun other under => counted other (by
          rw [List.length_cons] at under
          omega)) innerWritten
      refine ⟨.append ?_ ?_, ⟨_, List.mem_cons_self, ne_empty_of_last (last_fixed _ rfl)⟩⟩
      · exact .under (last_fixed _ rfl) check.stands ⟨fail, List.mem_cons_self, failing⟩ (fails _)
      · exact .under (last_fixed _ rfl) (bound.loopHeader level).stands nested.2 nested.1

/-! ### Lists -/

private theorem Tame.list (level : Nat) : Tame scope ("_t" ++ ToString.toString level) :=
  (Tame.ofList (by decide)).append (.toString level)

private theorem suite_listStart (level : Nat) {rest : List Line}
    (later : Suite quiet 0 scope rest) :
    Suite quiet 0 scope (plain (listStart level) :: rest) :=
  .statement (last_fixed _ rfl) (by decide)
    ((Tame.list level).append (.ofList (by decide))).stands later

/-- A line that appends to a list is not quiet. -/
theorem suite_append {value : String} (tame : Tame scope value) (level : Nat) :
    Suite false 0 scope [plain ("_t" ++ toString level ++ ".append(" ++ value ++ ")")] := by
  have list : Tame scope ("_t" ++ toString level) := .list level
  have call : subscriptFrame.Quiet (IsCounted scope) ".append(" := Frame.quiet_ofList rfl
  have close : Tame scope ")" := .ofList (by decide)
  have whole := ((list.subscripts.append call).append tame.subscripts).append close.subscripts
  exact .statement (last_fixed _ rfl) (by decide)
    (fun written => ⟨written, whole.fits, fun loud => nomatch loud⟩) .nil

/-- The lines that fill lists in loops. -/
theorem suite_fillingLoops {owner value : String} (outer : Refers owner)
    (tame : ∀ scope, Tame scope value) {body lines : List Line}
    (inside : ∀ scope, Suite false 0 scope body) {level : Nat} {dimensions : List Dimension}
    (read : ∀ dimension ∈ dimensions, dimension.Written)
    (written : fillingLoops owner body value level dimensions = .ok lines) :
    Suite false 0 scope lines := by
  induction dimensions generalizing level lines scope with
  | nil =>
      obtain rfl := Outcome.pure_eq_ok.mp written
      exact inside scope
  | cons dimension dimensions ih =>
      obtain ⟨here, later⟩ := List.forall_mem_cons.mp read
      obtain ⟨extent, filling, item, extentWritten, rfl, shape⟩ := fillingLoops_cons_eq_ok written
      have bound : Tame scope extent := outer.tame.extentText here extentWritten
      have nested : Suite false 0 (loopHeader level extent :: scope) filling ∧
          Tame (loopHeader level extent :: scope) item := by
        rcases shape with ⟨-, rfl, rfl⟩ | ⟨inner, innerWritten, rfl, rfl⟩
        · exact ⟨inside _, tame _⟩
        · exact ⟨suite_listStart (level + 1) (ih later innerWritten), .list (level + 1)⟩
      exact .under (last_fixed _ rfl) (bound.loopHeader level).stands
        ⟨_, List.mem_append_right _ List.mem_cons_self, ne_empty_of_last (last_fixed _ rfl)⟩
        (nested.1.append (suite_append nested.2 level))

/-- The lines that fill lists append to lists that they start, and to the outermost. -/
theorem fills_fillingLoops {owner value : String} (outer : Refers owner)
    (undotted : '.' ∉ value.toList) {body lines : List Line}
    (calm : ∀ line ∈ body, ∀ level, ¬ HasAppend level line.text) {started : List Nat} {level : Nat}
    (known : level ∈ started) {dimensions : List Dimension}
    (read : ∀ dimension ∈ dimensions, dimension.Written)
    (written : fillingLoops owner body value level dimensions = .ok lines) :
    Fills started lines := by
  induction dimensions generalizing level lines started with
  | nil =>
      obtain rfl := Outcome.pure_eq_ok.mp written
      exact .of_calm calm
  | cons dimension dimensions ih =>
      obtain ⟨here, later⟩ := List.forall_mem_cons.mp read
      obtain ⟨extent, filling, item, extentWritten, rfl, shape⟩ := fillingLoops_cons_eq_ok written
      have bound : Tame [] extent := outer.tame.extentText here extentWritten
      refine .block (not_hasAppend_of_fits (bound.loopHeader level).calls.fits) ?_
      rcases shape with ⟨-, rfl, rfl⟩ | ⟨inner, innerWritten, rfl, rfl⟩
      · exact .append (.of_calm calm) (.add undotted known)
      · have digits := not_mem_toString_dot (level + 1)
        have plain : '.' ∉ ("_t" ++ toString (level + 1)).toList := by
          rw [String.toList_append, List.mem_append, not_or]
          exact ⟨by decide, digits⟩
        have filled : Fills ((level + 1) :: started) inner :=
          ih List.mem_cons_self later innerWritten
        exact .append (.start filled) (.add plain known)

/-! ### Steps -/

private theorem last_encodeCall {type : FieldType} {value call : String}
    (written : encodeCall type value = .ok call) : call.toList.getLast? = some ')' := by
  rcases encodeCall_cases written with ⟨-, rfl⟩ | ⟨_, _, -, -, rfl⟩ | ⟨_, -, rfl⟩ <;>
    exact last_fixed _ rfl

private theorem last_decodeCall {type : FieldType} {call : String}
    (written : decodeCall type = .ok call) : call.toList.getLast? = some ')' := by
  rcases decodeCall_cases written with ⟨-, rfl⟩ | ⟨_, _, -, -, rfl⟩ | ⟨_, -, rfl⟩
  · rfl
  · exact last_fixed _ rfl
  · exact last_fixed _ rfl

private theorem last_elementSize (type : FieldType) (width : Option Nat) (value : String) :
    ∃ c, (elementSize type width value).toList.getLast? = some c ∧ c ≠ ':' := by
  unfold elementSize
  split
  · next bytes =>
      have some : (toString bytes).toList ≠ [] := by simp
      have member := List.getLast_mem some
      refine ⟨_, List.getLast?_eq_some_getLast some, fun same => ?_⟩
      rw [same] at member
      exact absurd (isDigit_of_mem_toString member) (by decide)
  · exact ⟨')', last_fixed _ rfl, by decide⟩
  · exact ⟨')', last_fixed _ rfl, by decide⟩

/-- What is read is a value, or the only one of a list. -/
theorem filling_parts {member : Member} {value : String}
    (chosen : value = if member.isPrimitive then "_v" else "_v[0]") :
    (∀ scope, Tame scope value) ∧ ∃ c, value.toList.getLast? = some c ∧ c ≠ ':' := by
  subst chosen
  split
  · exact ⟨fun _ => .ofList (by decide), 'v', rfl, by decide⟩
  · exact ⟨fun _ => .ofList (by decide), ']', rfl, by decide⟩

private theorem suite_lengthChecks {step : FieldStep} {fail : List Char}
    (checked : isStatement fail = true)
    (read : ∀ dimension ∈ step.loops, dimension.Written) :
    Suite quiet 0 scope (lengthChecks step (String.ofList fail)) := by
  refine .flatten fun lines present => ?_
  obtain ⟨length, member, rfl⟩ := List.mem_map.mp present
  have name := dotted_of_mem_lengthMembers read member
  have header : Tame scope ("if msg." ++ length ++ " < 0:") :=
    Tame.ofList (by decide) |>.append (.dotted name) |>.append (.ofList (by decide))
  exact .under (last_fixed _ rfl) header.stands
    ⟨_, List.mem_cons_self, ne_empty_of_isStatement checked⟩ (.fixed checked .nil)

private theorem suite_boundCheck {step : FieldStep}
    (read : ∀ dimension ∈ step.loops, dimension.Written) :
    Suite quiet 0 scope (boundCheck step) := by
  unfold boundCheck
  split
  · exact .nil
  · next length bounded =>
      split
      · exact .nil
      · have name := dotted_of_boundedLength? read bounded
        have header : Tame scope ("if msg." ++ length ++ " > maxlen - pos:") :=
          Tame.ofList (by decide) |>.append (.dotted name)
            |>.append (.ofList (by decide))
        exact .under (last_fixed _ rfl) header.stands ⟨_, List.mem_cons_self, by simp [plain]⟩
          (.fixed (by decide) .nil)

/-- What encodes a member is a suite of its method. -/
theorem suite_encodeStep (within : InMethod scope) {member : Member}
    (read : member.ReadFrom Source.Dotted) {lines : List Line}
    (written : encodeStep (.ofMember member) = .ok lines) : Suite quiet 0 scope lines := by
  obtain ⟨call, loops, called, loopsWritten, rfl⟩ := encodeStep_eq_ok written
  refine (suite_lengthChecks (by decide) read.dimensions).append (suite_checkedLoops
    refers_msg read.name (by simp [plain]) (fun _ => .fixed (by decide) .nil)
    ⟨_, List.mem_cons_of_mem _ List.mem_cons_self, by simp [plain]⟩ read.dimensions within
    (fun _ none => absurd none (Nat.not_lt_zero _)) (fun scope _ counted => ?_) loopsWritten).1
  rw [Nat.zero_add] at counted
  obtain ⟨anchored, tame⟩ := refers_msg.element read.name counted
  obtain ⟨bound, other⟩ := encodeCall_parts read.type anchored tame called
  have start : Tame scope "pos = " := .ofList (by decide)
  have settled : subscriptFrame.Settled (IsCounted scope) "pos = " := ⟨start.subscripts.fits, rfl⟩
  refine .statement (last_append _ (last_encodeCall called)) (by decide) (fun written => ?_)
    (.positionCheck (by decide))
  exact ⟨written, settled.then bound, fun _ =>
    not_hasAppend_of_fits (start.calls.append other).fits⟩

/-- The lines that read one element. -/
theorem suite_readingLines {type : FieldType} {call : String}
    (dotted : ∀ name, type = .compound name → Source.Dotted name)
    (called : decodeCall type = .ok call) : Suite quiet 0 scope (readingLines call) := by
  have tame : Tame scope ("pos, _v = " ++ call) :=
    (Tame.ofList (by decide)).append (.decodeCall dotted called)
  exact .statement (last_append _ (last_decodeCall called)) (by decide) tame.stands
    (.positionCheck (by decide))

/-- The line that sets a member. -/
theorem Tame.target {name value : String} (dotted : Source.Dotted name) (tame : Tame scope value) :
    Tame scope ("msg." ++ name ++ " = " ++ value) :=
  Tame.ofList (by decide) |>.append (.dotted dotted) |>.append (.ofList (by decide))
    |>.append tame

/-- What decodes a member is a suite in any scope. -/
theorem suite_decodeStep {member : Member} (read : member.ReadFrom Source.Dotted)
    {lines : List Line} (written : decodeStep (.ofMember member) = .ok lines) :
    Suite false 0 scope lines := by
  obtain ⟨call, value, moved, called, rfl, chosen, shape⟩ := decodeStep_eq_ok written
  obtain ⟨tame, last, ends, other⟩ := filling_parts chosen
  have checks : Suite false 0 scope (lengthChecks (.ofMember member) "return -1, None" ++
      boundCheck (.ofMember member)) :=
    (suite_lengthChecks (by decide) read.dimensions).append
      (suite_boundCheck read.dimensions)
  refine checks.append ?_
  rcases shape with ⟨-, rfl⟩ | ⟨-, loops, loopsWritten, rfl⟩
  · exact .append (suite_readingLines read.type called) (.statement (last_append _ ends) other
      (Tame.target read.name (tame scope)).stands .nil)
  · have nested : Suite false 0 scope loops := suite_fillingLoops refers_msg tame
      (fun _ => suite_readingLines read.type called) read.dimensions loopsWritten
    have list : Tame scope "_t0" := .ofList (by decide)
    exact .append (suite_listStart 0 nested) (.statement (last_fixed _ rfl) (by decide)
      (Tame.target read.name list).stands .nil)

/-- **A step of the decoder appends to the lists that it starts.** -/
theorem fills_decodeStep {member : Member} (read : member.ReadFrom Source.Dotted)
    {lines : List Line} (written : decodeStep (.ofMember member) = .ok lines) :
    Fills [] lines := by
  obtain ⟨call, value, moved, called, rfl, chosen, shape⟩ := decodeStep_eq_ok written
  obtain ⟨tame, -⟩ := filling_parts chosen
  have checks : Suite true 0 [] (lengthChecks (.ofMember member) "return -1, None" ++
      boundCheck (.ofMember member)) :=
    (suite_lengthChecks (by decide) read.dimensions).append
      (suite_boundCheck read.dimensions)
  have reading : Suite true 0 [] (readingLines call) := suite_readingLines read.type called
  have target {value : String} (tame : Tame [] value) :
      Fills [] [plain ("msg." ++ member.name ++ " = " ++ value)] :=
    .of_calm (List.forall_mem_singleton.mpr
      (not_hasAppend_of_fits (Tame.target read.name tame).calls.fits))
  refine .append (.of_calm checks.calm) ?_
  rcases shape with ⟨-, rfl⟩ | ⟨-, loops, loopsWritten, rfl⟩
  · exact .append (.of_calm reading.calm) (target (tame []))
  · have undotted : '.' ∉ value.toList := by
      rw [chosen]
      split <;> simp
    have filled : Fills [0] loops := fills_fillingLoops refers_msg undotted reading.calm
      List.mem_cons_self read.dimensions loopsWritten
    exact .append (.start filled) (target (.ofList (by decide)))

/-- The line that reports a list that is too short. -/
theorem suite_shortList {struct name : String} (dotted : Source.Dotted struct)
    (own : Source.Dotted name) :
    Suite quiet 0 scope [plain ("raise ValueError(\"" ++ struct ++ "." ++ name ++
      ": fewer elements than its dimensions\")")] := by
  have tame : Tame scope ("raise ValueError(\"" ++ struct ++ "." ++ name ++
      ": fewer elements than its dimensions\")") :=
    Tame.ofList (by decide) |>.append (.dotted dotted)
      |>.append (.ofList (by decide)) |>.append (.dotted own)
      |>.append (.ofList (by decide))
  exact .statement (last_fixed _ rfl) (by decide) tame.stands .nil

/-- What adds the size of a member is a suite of its method. -/
theorem suite_sizeStep (within : InMethod scope) {struct : String}
    (dotted : Source.Dotted struct) {member : Member} (read : member.ReadFrom Source.Dotted)
    {term : SizeTerm} (found : SizeTerm.ofMember member = .ok term) {lines : List Line}
    (written : sizeStep struct term = .ok lines) : Suite quiet 0 scope lines := by
  rcases SizeTerm.ofMember_eq_ok found with ⟨width, extents, -, -, -, rfl⟩ | ⟨rfl, -⟩
  · obtain rfl := Outcome.pure_eq_ok.mp written
    exact .nil
  · obtain ⟨c, ends, other⟩ := last_elementSize member.type member.type.width?
      (elementText "self" member.name member.dimensions.length)
    have filled := ne_empty_of_last (last_append "size += " ends)
    refine (suite_checkedLoops refers_self read.name ?_ ?_ ⟨_, List.mem_cons_self, filled⟩
      read.dimensions within (fun _ none => absurd none (Nat.not_lt_zero _)) ?_ written).1
    · simp [plain]
    · exact fun _ => suite_shortList dotted read.name
    · intro scope _ counted
      rw [Nat.zero_add] at counted
      have start : Tame scope "size += " := .ofList (by decide)
      have element := (refers_self.element read.name counted).2
      exact .statement (last_append _ ends) other (start.append element.elementSize).stands .nil

end Steps

end Wireform.Backend
