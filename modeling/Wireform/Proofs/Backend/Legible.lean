import Wireform.Proofs.Backend.Outline
import Wireform.Proofs.Backend.Writers
import Wireform.Proofs.Source.Names

/-! # Texts that keep to one line

A generated line can be read back when its text has no line break and does not start with a blank.
Its text is put together from fixed words, which start it, and from names, numerals and quoted
texts. All of these are without line breaks: names since they are dotted
(`Wireform.Backend.Unbroken.ofDotted`), quoted texts since quoting escapes line breaks
(`Wireform.Backend.Unbroken.quote`).
-/

namespace Wireform.Backend

/-- A text without a line break. -/
def Unbroken (text : String) : Prop := '\n' ∉ text.toList

/-- A text that can stand on a line: it has no line break and starts with a character that is not a
blank. -/
structure Printed (text : String) : Prop where
  unbroken : Unbroken text
  starts : ∃ c ∈ text.toList.head?, c ≠ ' '

/-- Texts without line breaks make a text without line breaks. -/
theorem Unbroken.append {first second : String} (left : Unbroken first) (right : Unbroken second) :
    Unbroken (first ++ second) := by
  intro member
  rw [String.toList_append, List.mem_append] at member
  exact member.elim left right

/-- More text after a printed one is printed with it. -/
theorem Printed.append {first second : String} (left : Printed first) (right : Unbroken second) :
    Printed (first ++ second) := by
  refine ⟨left.unbroken.append right, ?_⟩
  obtain ⟨c, starts, solid⟩ := left.starts
  refine ⟨c, ?_, solid⟩
  rw [String.toList_append, Option.mem_def, List.head?_append, Option.mem_def.mp starts]
  rfl

/-- Fixed words are checked character by character. -/
theorem Unbroken.ofList {chars : List Char} (checked : chars.all (· != '\n') = true) :
    Unbroken (String.ofList chars) := by
  intro member
  rw [String.toList_ofList] at member
  exact absurd (List.all_eq_true.mp checked '\n' member) (by decide)

/-- Fixed characters are checked by evaluation: the first is no space and none is a line break. -/
theorem Printed.ofList {c : Char} {chars : List Char}
    (checked : (c != ' ' && (c :: chars).all (· != '\n')) = true) :
    Printed (String.ofList (c :: chars)) := by
  obtain ⟨solid, unbroken⟩ := Bool.and_eq_true_iff.mp checked
  refine ⟨.ofList unbroken, c, ?_, bne_iff_ne.mp solid⟩
  rw [String.toList_ofList]
  rfl

/-- A line break is kept out by whatever all characters of a text have and it has not. -/
theorem unbroken_of_forall {text : String} {holds : Char → Prop}
    (chars : ∀ c ∈ text.toList, holds c) (excluded : ¬ holds '\n') : Unbroken text :=
  fun member => excluded (chars _ member)

/-! ### Names and numerals -/

/-- A dotted name stays on one line. -/
theorem Unbroken.ofDotted {name : String} (dotted : Source.Dotted name) : Unbroken name :=
  unbroken_of_forall dotted (by decide)

/-- A dotted name has no characters but those of names. -/
theorem not_mem_of_dotted {name : String} (dotted : Source.Dotted name) {c : Char}
    (outside : Source.isNamePart c = false) : c ∉ name.toList := fun member => by
  rw [dotted c member] at outside
  cases outside

/-- The characters of a flat name are parts of dotted names. -/
theorem not_mem_flatName {name : String} (dotted : Source.Dotted name) {c : Char}
    (outside : Source.isNamePart c = false) : c ∉ (flatName name).toList := by
  intro member
  simp only [flatName, String.toList_ofList, List.mem_map] at member
  obtain ⟨d, present, rfl⟩ := member
  split at outside
  · cases outside
  · exact absurd (outside.symm.trans (dotted d present)) (by simp)

/-- Class names stay on one line. -/
theorem Unbroken.flatName {name : String} (dotted : Source.Dotted name) :
    Unbroken (flatName name) :=
  not_mem_flatName dotted rfl

/-- Numerals of the library stay on one line. -/
theorem Unbroken.toString (n : Nat) : Unbroken (ToString.toString n) :=
  unbroken_of_forall (fun _ member => isDigit_of_mem_toString member) (by decide)

/-- Written numbers stay on one line. -/
theorem Unbroken.write {value : Int} {text : String} (written : Numeral.write value = .ok text) :
    Unbroken text :=
  unbroken_of_forall (fun _ member => isDigit_or_sign_of_write written member) (by decide)

/-- Joining keeps texts on one line. -/
theorem Unbroken.join {texts : List String} (unbroken : ∀ text ∈ texts, Unbroken text) :
    Unbroken (String.join texts) := by
  intro member
  rw [String.toList_join, List.mem_flatMap] at member
  obtain ⟨text, present, inside⟩ := member
  exact unbroken text present inside

/-- A text put together from others has their characters and those of the separator. -/
theorem not_mem_intercalate {c : Char} {separator : String} {texts : List String}
    (apart : c ∉ separator.toList) (absent : ∀ text ∈ texts, c ∉ text.toList) :
    c ∉ (String.intercalate separator texts).toList := by
  induction texts with
  | nil => exact List.not_mem_nil
  | cons text texts ih =>
      have first := absent text List.mem_cons_self
      cases texts with
      | nil =>
          rw [String.intercalate_singleton]
          exact first
      | cons next texts =>
          have rest := ih fun later member => absent later (List.mem_cons_of_mem _ member)
          simp only [String.intercalate_cons_cons, String.toList_append, List.mem_append, not_or]
          exact ⟨⟨first, apart⟩, rest⟩

/-- So does joining with a separator that is on one line itself. -/
theorem Unbroken.intercalate {separator : String} {texts : List String}
    (apart : Unbroken separator) (unbroken : ∀ text ∈ texts, Unbroken text) :
    Unbroken (String.intercalate separator texts) :=
  not_mem_intercalate apart unbroken

/-! ### Hexadecimal and quoted texts -/

private theorem isAlphanum_of_mem_toDigits {n : Nat} {c : Char} (member : c ∈ Nat.toDigits 16 n) :
    c.isAlphanum = true := by
  induction n using Nat.strongRecOn with
  | ind n ih =>
      have digit : ∀ d < 16, (Nat.digitChar d).isAlphanum = true := by decide
      rw [Nat.toDigits_eq_if (by omega)] at member
      split at member
      · next small =>
          obtain rfl := List.mem_singleton.mp member
          exact digit n small
      · next large =>
          rcases List.mem_append.mp member with earlier | last
          · exact ih (n / 16) (by omega) earlier
          · obtain rfl := List.mem_singleton.mp last
            exact digit _ (Nat.mod_lt n (by omega))

/-- Hexadecimal digits are letters and digits of ASCII. -/
theorem isAlphanum_of_mem_hexDigits {width n : Nat} {c : Char}
    (member : c ∈ Text.hexDigits width n) : c.isAlphanum = true := by
  rcases List.mem_append.mp member with padding | digit
  · rw [List.eq_of_mem_replicate padding]
    rfl
  · exact isAlphanum_of_mem_toDigits digit

private theorem not_mem_hexDigits (width n : Nat) : '\n' ∉ Text.hexDigits width n :=
  fun member => absurd (isAlphanum_of_mem_hexDigits member) (by decide)

/-- A hexadecimal numeral has a sign besides its digits. -/
theorem isAlphanum_or_sign_of_mem_hexText {width : Nat} {value : Int} {c : Char}
    (member : c ∈ (Text.hexText width value).toList) : c.isAlphanum = true ∨ c = '-' := by
  unfold Text.hexText at member
  split at member
  · rw [String.toList_ofList] at member
    exact .inl (isAlphanum_of_mem_hexDigits member)
  · rw [String.toList_ofList, List.mem_cons] at member
    exact member.symm.imp_left isAlphanum_of_mem_hexDigits

/-- Hexadecimal numerals stay on one line. -/
theorem Unbroken.hexText (width : Nat) (value : Int) : Unbroken (Text.hexText width value) :=
  fun member => absurd (isAlphanum_or_sign_of_mem_hexText member) (by decide)

private theorem not_mem_codePointEscape (c : Char) : '\n' ∉ Text.codePointEscape c := by
  unfold Text.codePointEscape
  split
  · simpa using not_mem_hexDigits 2 c.toNat
  · split
    · simpa using not_mem_hexDigits 4 c.toNat
    · simpa using not_mem_hexDigits 8 c.toNat

private theorem not_mem_escape {mark c : Char} (outer : mark ≠ '\n') :
    '\n' ∉ Text.escape mark c := by
  unfold Text.escape
  split
  · next escaped =>
      have differs : c ≠ '\n' := by
        rcases escaped with rfl | rfl
        · exact outer
        · decide
      simpa using Ne.symm differs
  · split
    · decide
    · split
      · decide
      · next other =>
          split
          · decide
          · split
            · simpa using Ne.symm other
            · exact not_mem_codePointEscape c

/-- Quoting leaves no line break. -/
theorem Unbroken.quote (text : String) : Unbroken (Text.quote text) := by
  have mark : Text.quoteMark text.toList ≠ '\n' := by
    unfold Text.quoteMark
    split <;> decide
  intro member
  simp only [Text.quote, Text.quoteChars, String.toList_ofList, List.mem_cons, List.mem_append,
    List.mem_flatMap, List.not_mem_nil, or_false] at member
  rcases member with same | ⟨c, -, escaped⟩ | same
  · exact mark same.symm
  · exact not_mem_escape mark escaped
  · exact mark same.symm

/-! ### Lines -/

/-- Lines that can all be read back. -/
def LegibleLines (lines : List Line) : Prop := ∀ line ∈ lines, line.Legible

/-- No lines are legible lines. -/
theorem LegibleLines.nil : LegibleLines [] := by simp [LegibleLines]

/-- A printed text makes one more legible line. -/
theorem LegibleLines.cons {text : String} (printed : Printed text) {lines : List Line}
    (rest : LegibleLines lines) : LegibleLines (plain text :: lines) := by
  intro line member
  rcases List.mem_cons.mp member with rfl | later
  · refine ⟨printed.unbroken, ?_⟩
    obtain ⟨c, starts, solid⟩ := printed.starts
    rw [show (plain text).text = text from rfl, Option.mem_def.mp starts]
    exact fun same => solid (Option.some.inj same)
  · exact rest line later

/-- A blank line may stand in front of legible lines. -/
theorem LegibleLines.blank {lines : List Line} (rest : LegibleLines lines) :
    LegibleLines (Line.blank :: lines) := by
  intro line member
  rcases List.mem_cons.mp member with rfl | later
  · exact ⟨Unbroken.ofList rfl, by decide⟩
  · exact rest line later

/-- Legible lines may follow each other. -/
theorem LegibleLines.append {first second : List Line} (left : LegibleLines first)
    (right : LegibleLines second) : LegibleLines (first ++ second) := by
  intro line member
  exact (List.mem_append.mp member).elim (left line) (right line)

/-- The depth of lines does not matter to their texts. -/
theorem LegibleLines.deeper {lines : List Line} (legible : LegibleLines lines) :
    LegibleLines (deeper lines) := by
  intro line member
  obtain ⟨shallow, present, rfl⟩ := List.mem_map.mp member
  exact ⟨(legible shallow present).unbroken, (legible shallow present).flush⟩

/-- A block is legible with its header and its body. -/
theorem LegibleLines.block {header : String} (printed : Printed header) {body : List Line}
    (legible : LegibleLines body) : LegibleLines (block header body) :=
  .cons printed legible.deeper

/-- Parts that are legible make legible lines together. -/
theorem LegibleLines.flatten {parts : List (List Line)}
    (legible : ∀ lines ∈ parts, LegibleLines lines) : LegibleLines parts.flatten := by
  intro line member
  obtain ⟨lines, present, inside⟩ := List.mem_flatten.mp member
  exact legible lines present line inside

/-- What holds of the lines for each member holds of the steps of a codec. -/
theorem forall_mem_steps {Fault : Type} {holds : Line → Prop}
    {write : FieldStep → Except Fault (List Line)} {members : List Member}
    {steps : List (List Line)}
    (each : ∀ member ∈ members, ∀ lines, write (.ofMember member) = .ok lines →
      ∀ line ∈ lines, holds line)
    (written : (members.map FieldStep.ofMember).mapM write = .ok steps) :
    ∀ line ∈ steps.flatten, holds line := by
  intro line inside
  obtain ⟨lines, present, listed⟩ := List.mem_flatten.mp inside
  obtain ⟨member, known, stepWritten⟩ := exists_of_mem_steps written present
  exact each member known lines stepWritten line listed

/-- The steps of a codec are legible where the step of every member is. -/
theorem LegibleLines.steps {Fault : Type} {write : FieldStep → Except Fault (List Line)}
    {members : List Member} {steps : List (List Line)}
    (each : ∀ member ∈ members, ∀ lines, write (.ofMember member) = .ok lines →
      LegibleLines lines)
    (written : (members.map FieldStep.ofMember).mapM write = .ok steps) :
    LegibleLines steps.flatten :=
  forall_mem_steps each written

end Wireform.Backend
