import Wireform.Proofs.Backend.PythonText

/-! # Names in a line of Python

A name in a line of generated Python is a word that stands in code and on its own: not in a quoted
text or in a comment, not after a dot, where it is an attribute, and not where a method or a class
is being defined. `Wireform.Backend.namesIn` reads these names off a line, character by character.
The fields of a formatted text are code again.

Lines are put together from fixed words and from names, numerals and quoted texts. What is read in a
line is therefore stated part by part, as what holds of the reader before and after a part
(`Wireform.Backend.Reads`), and the parts are chained (`Wireform.Backend.Reads.append`). A part of
fixed words is read by running the reader on it, and the parts that vary have a lemma each. Behind a
word that may end the reader is settled (`Wireform.Backend.Reader.Settled`), and what comes next
does not depend on that word.
-/

namespace Wireform.Backend

/-! ### The reader -/

/-- The characters of names and numerals. Every character beyond ASCII counts as one. -/
def isWordPart (c : Char) : Bool := c.isAlphanum || c == '_' || decide (127 < c.toNat)

/-- What a part of a line is. -/
inductive Region where
  | code
  /-- A text in quotes. In a formatted one, braces enclose code. -/
  | quoted (mark : Char) (isFormatted : Bool)
  /-- A text in quotes, behind a backslash. -/
  | escaped (mark : Char) (isFormatted : Bool)
  | comment
  deriving DecidableEq, Repr

/-- Where a reader stands in a line. -/
structure Reader where
  region : Region := .code
  /-- The quotes of the formatted texts around the code, from the innermost out. -/
  around : List Char := []
  /-- The part of a word that has been read. -/
  word : List Char := []
  /-- Whether the word, or the next one, stands on its own. -/
  isFree : Bool := true
  deriving DecidableEq, Repr

namespace Reader

/-- The start of a line, and of each word that stands on its own. -/
def fresh : Reader := {}

/-- The start of a word that does not stand on its own. -/
def bound : Reader := { isFree := false }

/-- A place in a quoted text that is not formatted. -/
def inside (mark : Char) : Reader := { region := .quoted mark false }

/-- A place in a comment. -/
def remark : Reader := { region := .comment }

/-- The name that has been read, if the word ends here. A word that starts with a digit is a
numeral. -/
def ending (reader : Reader) : List (List Char) :=
  match reader.region, reader.word with
  | .code, c :: rest => if reader.isFree && !c.isDigit then [c :: rest] else []
  | _, _ => []

/-- Whether a word stands on its own behind a character that ends the one before. -/
def frees (reader : Reader) (c : Char) : Bool :=
  !(c == '.' || c == '!' ||
    reader.isFree && (reader.word == ['d', 'e', 'f'] || reader.word == ['c', 'l', 'a', 's', 's']))

/-- The reader one character on in code. -/
def stepInCode (reader : Reader) (c : Char) : Reader :=
  if isWordPart c then { reader with word := reader.word ++ [c] }
  else if c == '"' || c == '\'' then
    ⟨.quoted c (reader.word == ['f']), reader.around, [], true⟩
  else if c == '#' then ⟨.comment, reader.around, [], true⟩
  else match reader.around with
    | mark :: outer =>
        if c == '\x7d' then ⟨.quoted mark true, outer, [], true⟩
        else ⟨.code, mark :: outer, [], reader.frees c⟩
    | [] => ⟨.code, [], [], reader.frees c⟩

/-- The reader one character on. -/
def step (reader : Reader) (c : Char) : Reader :=
  match reader.region with
  | .code => reader.stepInCode c
  | .quoted mark isFormatted =>
      if c == mark then { reader with region := .code }
      else if c == '\\' then { reader with region := .escaped mark isFormatted }
      else if isFormatted && c == '\x7b' then
        { reader with region := .code, around := mark :: reader.around }
      else reader
  | .escaped mark isFormatted => { reader with region := .quoted mark isFormatted }
  | .comment => reader

/-- The name that a character ends. The letter that marks a formatted text is no name. -/
def found (reader : Reader) (c : Char) : List (List Char) :=
  if isWordPart c || (reader.word == ['f'] && (c == '"' || c == '\'')) then [] else reader.ending

/-- The reader behind a text, and the names that have ended in it. -/
def scan (reader : Reader) : List Char → Reader × List (List Char)
  | [] => (reader, [])
  | c :: rest =>
      let (last, later) := scan (reader.step c) rest
      (last, reader.found c ++ later)

private theorem scan_cons (reader : Reader) (c : Char) (rest : List Char) :
    reader.scan (c :: rest) =
      (((reader.step c).scan rest).1, reader.found c ++ ((reader.step c).scan rest).2) := rfl

private theorem scan_append (reader : Reader) (first second : List Char) :
    reader.scan (first ++ second) =
      (((reader.scan first).1.scan second).1,
        (reader.scan first).2 ++ ((reader.scan first).1.scan second).2) := by
  induction first generalizing reader with
  | nil => rfl
  | cons c first ih => simp only [List.cons_append, scan_cons, ih, List.append_assoc]

/-- What each character of a text keeps, the text keeps; no name ends in it if none ends at its
characters. -/
theorem scan_of_kept {kept : Reader → Prop} {text : List Char}
    (each : ∀ c ∈ text, ∀ reader, kept reader → kept (reader.step c) ∧ reader.found c = [])
    {reader : Reader} (start : kept reader) :
    kept (reader.scan text).1 ∧ (reader.scan text).2 = [] := by
  induction text generalizing reader with
  | nil => exact ⟨start, rfl⟩
  | cons c text ih =>
      obtain ⟨here, later⟩ := List.forall_mem_cons.mp each
      obtain ⟨next, none⟩ := here reader start
      obtain ⟨final, rest⟩ := ih later next
      refine ⟨final, ?_⟩
      rw [scan_cons, none, rest, List.nil_append]

/-- In code, the characters of a word are collected. -/
theorem scan_word {reader : Reader} (code : reader.region = .code) {text : List Char}
    (word : ∀ c ∈ text, isWordPart c = true) :
    reader.scan text = ({ reader with word := reader.word ++ text }, []) := by
  induction text generalizing reader with
  | nil => simp [scan]
  | cons c text ih =>
      obtain ⟨here, later⟩ := List.forall_mem_cons.mp word
      have step : reader.step c = { reader with word := reader.word ++ [c] } := by
        simp [Reader.step, code, stepInCode, here]
      have none : reader.found c = [] := by simp [found, here]
      have rest : Reader.scan { reader with word := reader.word ++ [c] } text =
          ({ reader with word := reader.word ++ [c] ++ text }, []) := ih code later
      rw [scan_cons, step, rest, none, List.append_assoc]
      rfl

end Reader

/-- The names in a line. -/
def namesIn (text : String) : List String :=
  let (last, found) := Reader.fresh.scan text.toList
  (found ++ last.ending).map String.ofList

example : namesIn "if msg.n < 0:  # msg.m" = ["if", "msg"] := by decide +kernel

example : namesIn "return f\"\x7btype(self).__name__\x7d(\x7bfields\x7d)\"" =
    ["return", "type", "self", "fields"] := by decide +kernel

/-! ### Parts of lines -/

/-- A part of a line leads a reader from one condition to another, and only names that are known
end in it. -/
def Reads (known : String → Prop) (before : Reader → Prop) (text : String)
    (after : Reader → Prop) : Prop :=
  ∀ reader, before reader → after (reader.scan text.toList).1 ∧
    ∀ word ∈ (reader.scan text.toList).2, known (String.ofList word)

/-- The name that ends with the line, if there is one, is known. -/
def Reader.Ends (known : String → Prop) (reader : Reader) : Prop :=
  ∀ word ∈ reader.ending, known (String.ofList word)

/-- The reader behind a word that may end here. If it ends, the name is known, and no definition
follows. -/
structure Reader.Settled (known : String → Prop) (reader : Reader) : Prop where
  code : reader.region = .code
  outside : reader.around = []
  ends : reader.Ends known
  frees : ∀ c, reader.frees c = !(c == '.' || c == '!')

section Parts

variable {known : String → Prop} {before between after : Reader → Prop} {first second text : String}

/-- The parts of a line are read one after the other. -/
theorem Reads.append (left : Reads known before first between)
    (right : Reads known between second after) : Reads known before (first ++ second) after := by
  intro reader start
  obtain ⟨middle, leftKnown⟩ := left reader start
  obtain ⟨final, rightKnown⟩ := right _ middle
  rw [String.toList_append, Reader.scan_append]
  refine ⟨final, fun word member => ?_⟩
  rcases List.mem_append.mp member with earlier | later
  · exact leftKnown word earlier
  · exact rightKnown word later

/-- A condition that is reached may be weakened. -/
theorem Reads.mono {weaker : Reader → Prop} (reads : Reads known before text after)
    (imp : ∀ reader, after reader → weaker reader) : Reads known before text weaker :=
  fun reader start => ⟨imp _ (reads reader start).1, (reads reader start).2⟩

/-- Parts that lead back to where they start can follow each other. -/
theorem Reads.join {texts : List String} (each : ∀ text ∈ texts, Reads known before text before) :
    Reads known before (String.join texts) before := by
  induction texts with
  | nil =>
      intro reader start
      exact ⟨start, List.forall_mem_nil _⟩
  | cons text texts ih =>
      obtain ⟨here, later⟩ := List.forall_mem_cons.mp each
      rw [String.join_cons]
      exact here.append (ih later)

/-- Parts that lead back to where they start may be joined. -/
theorem Reads.intercalate {separator : String} {texts : List String}
    (apart : Reads known before separator before)
    (each : ∀ text ∈ texts, Reads known before text before) :
    Reads known before (String.intercalate separator texts) before := by
  induction texts with
  | nil =>
      intro reader start
      exact ⟨start, List.forall_mem_nil _⟩
  | cons text texts ih =>
      obtain ⟨here, later⟩ := List.forall_mem_cons.mp each
      cases texts with
      | nil =>
          rw [String.intercalate_singleton]
          exact here
      | cons next texts =>
          rw [String.intercalate_cons_cons]
          exact (here.append apart).append (ih later)

/-- The names in a line are those that end in its parts, and the one that ends with it. -/
theorem Reads.namesIn (reads : Reads known (Eq .fresh) text (Reader.Ends known)) :
    ∀ name ∈ namesIn text, known name := by
  obtain ⟨ends, within⟩ := reads .fresh rfl
  intro name member
  obtain ⟨word, present, rfl⟩ := List.mem_map.mp member
  rcases List.mem_append.mp present with ended | last
  · exact within word ended
  · exact ends word last

/-! ### Behind a word -/

/-- A word that starts with a digit is a numeral and no name. -/
theorem Reader.ending_of_isDigit {reader : Reader}
    (digit : ∀ c ∈ reader.word.head?, c.isDigit = true) : reader.ending = [] := by
  unfold Reader.ending
  split
  · next shape =>
      rw [shape] at digit
      simp [digit _ rfl]
  · rfl

private theorem Reader.settled_of_isDigit {reader : Reader} (code : reader.region = .code)
    (outside : reader.around = []) (digit : ∀ c ∈ reader.word.head?, c.isDigit = true) :
    reader.Settled known := by
  refine ⟨code, outside, ?_, fun c => ?_⟩
  · simp [Reader.Ends, Reader.ending_of_isDigit digit]
  · have word (c : Char) (rest : List Char) (letter : c.isDigit = false) :
        (reader.word == c :: rest) = false := by
      rw [beq_eq_false_iff_ne]
      intro same
      rw [same] at digit
      exact absurd (digit c rfl) (by simp [letter])
    simp [Reader.frees, word]

/-- A word that does not stand on its own is no name. -/
theorem Reader.settled_of_isFree_eq_false {reader : Reader} (code : reader.region = .code)
    (outside : reader.around = []) (held : reader.isFree = false) : reader.Settled known := by
  refine ⟨code, outside, ?_, fun c => by simp [Reader.frees, held]⟩
  unfold Reader.Ends Reader.ending
  split <;> simp [held]

/-- A word that is known, and no keyword before a definition. -/
theorem Reader.settled_of_known {word : List Char} (named : known (String.ofList word))
    (notDef : word ≠ ['d', 'e', 'f']) (notClass : word ≠ ['c', 'l', 'a', 's', 's']) :
    Reader.Settled known { word := word } := by
  refine ⟨rfl, rfl, ?_, fun c => by simp [Reader.frees, notDef, notClass]⟩
  intro other member
  unfold Reader.ending at member
  split at member
  · next shape =>
      split at member
      · obtain rfl := List.mem_singleton.mp member
        exact shape ▸ named
      · cases member
  · cases member

/-- A character that ends a word in code. -/
def isStop (c : Char) : Bool := !(isWordPart c || c == '"' || c == '\'' || c == '#')

/-- Behind a settled word the next part is read as at the start of a word. -/
theorem Reads.stop {c : Char} (stops : isStop c = true) {chars : List Char}
    {after : Reader → Prop}
    (rest : Reads known (Eq { isFree := !(c == '.' || c == '!') }) (String.ofList chars) after) :
    Reads known (Reader.Settled known) (String.ofList (c :: chars)) after := by
  intro reader settled
  -- the character ends the word, and nothing of the word is left in the reader behind it
  obtain ⟨⟨⟨split, double⟩, single⟩, comment⟩ :
      ((isWordPart c = false ∧ (c == '"') = false) ∧ (c == '\'') = false) ∧ (c == '#') = false := by
    simpa [isStop, and_assoc] using stops
  have step : reader.step c = { isFree := !(c == '.' || c == '!') } := by
    simp [Reader.step, Reader.stepInCode, settled.code, settled.outside, split, double, single,
      comment, settled.frees]
  have ended : reader.found c = reader.ending := by
    simp [Reader.found, split, double, single]
  obtain ⟨final, within⟩ := rest _ rfl
  rw [String.toList_ofList] at final within ⊢
  rw [Reader.scan_cons, step, ended]
  refine ⟨final, fun word member => ?_⟩
  rcases List.mem_append.mp member with here | later
  · exact settled.ends word here
  · exact within word later

/-! ### Fixed words -/

/-- Whether a text leads from one place of the reader to another, and only listed names end in
it. -/
def Reader.leads (names : List String) (start : Reader) (chars : List Char) (final : Reader) :
    Bool :=
  let (last, found) := start.scan chars
  last == final && found.all (names.contains <| String.ofList ·)

/-- Whether a text leads to the end of a listed name or of something that is no name, and only
listed names end in it. -/
def Reader.settles (names : List String) (start : Reader) (chars : List Char) : Bool :=
  let (last, found) := start.scan chars
  last.region == .code && last.around == [] && last.word != ['d', 'e', 'f'] &&
    last.word != ['c', 'l', 'a', 's', 's'] &&
    (found ++ last.ending).all (names.contains <| String.ofList ·)

/-- What fixed characters lead to is checked by evaluation. -/
theorem Reads.ofList {names : List String} {start final : Reader} {chars : List Char}
    (listed : ∀ name ∈ names, known name) (checked : start.leads names chars final = true) :
    Reads known (Eq start) (String.ofList chars) (Eq final) := by
  rintro _ rfl
  obtain ⟨same, found⟩ := Bool.and_eq_true_iff.mp checked
  rw [String.toList_ofList]
  refine ⟨(beq_iff_eq.mp same).symm, fun word member => ?_⟩
  exact listed _ (List.contains_iff_mem.mp (List.all_eq_true.mp found word member))

/-- So is that fixed characters end in a word that may end there. -/
theorem Reads.settling {names : List String} {start : Reader} {chars : List Char}
    (listed : ∀ name ∈ names, known name) (checked : start.settles names chars = true) :
    Reads known (Eq start) (String.ofList chars) (Reader.Settled known) := by
  rintro _ rfl
  obtain ⟨rest, found⟩ := Bool.and_eq_true_iff.mp checked
  have each : ∀ word ∈ (start.scan chars).2 ++ (start.scan chars).1.ending,
      known (String.ofList word) := by
    intro word member
    exact listed _ (List.contains_iff_mem.mp (List.all_eq_true.mp found word member))
  rw [List.forall_mem_append] at each
  simp only [Bool.and_eq_true, beq_iff_eq, bne_iff_ne] at rest
  obtain ⟨⟨⟨code, outside⟩, notDef⟩, notClass⟩ := rest
  rw [String.toList_ofList]
  exact ⟨⟨code, outside, each.2, fun c => by simp [Reader.frees, notDef, notClass]⟩, each.1⟩

/-! ### Names, numerals and quoted texts -/

/-- A word may go on with the characters of names. -/
theorem Reads.word {start : List Char} (parts : ∀ c ∈ text.toList, isWordPart c = true)
    (settled : Reader.Settled known { word := start ++ text.toList }) :
    Reads known (Eq { word := start }) text (Reader.Settled known) := by
  rintro _ rfl
  rw [Reader.scan_word rfl parts]
  exact ⟨settled, List.forall_mem_nil _⟩

/-- The characters of dotted names are those of names, and dots. -/
theorem isWordPart_of_isNamePart {c : Char} (part : Source.isNamePart c = true) :
    isWordPart c = true ∨ c = '.' := by
  have ascii : ∀ n < 128, Source.isNamePart (Char.ofNat n) = true →
      isWordPart (Char.ofNat n) = true ∨ Char.ofNat n = '.' := by
    decide +kernel
  by_cases beyond : 127 < c.toNat
  · exact .inl (by simp [isWordPart, beyond])
  · have found := ascii c.toNat (by omega)
    rw [Char.ofNat_toNat] at found
    exact found part

/-- Nothing is used in a dotted name that does not stand on its own. -/
theorem Reads.attribute (dotted : Source.Dotted text) :
    Reads known (Eq .bound) text (Reader.Settled known) := by
  rintro _ rfl
  -- a dot in the name leaves the word behind it bound as well
  let kept (reader : Reader) : Prop :=
    reader.region = .code ∧ reader.around = [] ∧ reader.isFree = false
  have each : ∀ c ∈ text.toList, ∀ reader, kept reader →
      kept (reader.step c) ∧ reader.found c = [] := by
    rintro c member reader ⟨code, outside, held⟩
    have none : reader.found c = [] := by
      unfold Reader.found Reader.ending
      split
      · rfl
      · split <;> simp [held]
    refine ⟨?_, none⟩
    rcases isWordPart_of_isNamePart (dotted c member) with part | rfl
    · simp [kept, Reader.step, Reader.stepInCode, code, part, outside, held]
    · have split : isWordPart '.' = false := by decide
      simp [kept, Reader.step, Reader.stepInCode, code, outside, split, Reader.frees]
  obtain ⟨⟨code, outside, held⟩, none⟩ :=
    Reader.scan_of_kept each (show kept .bound from ⟨rfl, rfl, rfl⟩)
  rw [none]
  exact ⟨Reader.settled_of_isFree_eq_false code outside held, List.forall_mem_nil _⟩

/-- Nothing is used in a numeral. -/
theorem Reads.numeral (digits : ∀ c ∈ text.toList, c.isDigit = true ∨ c = '-') :
    Reads known (Eq .fresh) text (Reader.Settled known) := by
  rintro _ rfl
  -- a sign ends the word before it, so a word is empty or starts with a digit throughout
  let kept (reader : Reader) : Prop :=
    reader.region = .code ∧ reader.around = [] ∧ ∀ c ∈ reader.word.head?, c.isDigit = true
  have each : ∀ c ∈ text.toList, ∀ reader, kept reader →
      kept (reader.step c) ∧ reader.found c = [] := by
    rintro c member reader ⟨code, outside, digit⟩
    rcases digits c member with figure | rfl
    · have part : isWordPart c = true := by simp [isWordPart, Char.isAlphanum, figure]
      refine ⟨?_, by simp [Reader.found, part]⟩
      cases shape : reader.word with
      | nil => simp [kept, Reader.step, Reader.stepInCode, code, part, outside, shape, figure]
      | cons first rest =>
          simpa [kept, Reader.step, Reader.stepInCode, code, part, outside, shape] using digit
    · have split : isWordPart '-' = false := by decide
      refine ⟨?_, by simp [Reader.found, split, Reader.ending_of_isDigit digit]⟩
      simp [kept, Reader.step, Reader.stepInCode, code, outside, split]
  obtain ⟨⟨code, outside, digit⟩, none⟩ :=
    Reader.scan_of_kept each (show kept .fresh from ⟨rfl, rfl, by simp [Reader.fresh]⟩)
  rw [none]
  exact ⟨Reader.settled_of_isDigit code outside digit, List.forall_mem_nil _⟩

/-- A quoted text goes on up to its quote. -/
theorem Reader.scan_inside {mark : Char} {chars : List Char}
    (plain : ∀ c ∈ chars, c ≠ mark ∧ c ≠ '\\') :
    (Reader.inside mark).scan chars = (.inside mark, []) := by
  have each : ∀ c ∈ chars, ∀ reader, Reader.inside mark = reader →
      Reader.inside mark = reader.step c ∧ reader.found c = [] := by
    rintro c member _ rfl
    obtain ⟨within, solid⟩ := plain c member
    simp [Reader.inside, Reader.step, Reader.found, Reader.ending, within, solid]
  obtain ⟨still, none⟩ := Reader.scan_of_kept each rfl
  exact Prod.ext still.symm none

/-- The character behind a backslash does not end a quoted text. -/
theorem Reader.scan_inside_escaped {mark : Char} (solid : mark ≠ '\\') (c : Char)
    (rest : List Char) :
    (Reader.inside mark).scan ('\\' :: c :: rest) = (Reader.inside mark).scan rest := by
  simp [Reader.scan_cons, Reader.inside, Reader.step, Reader.found, Reader.ending, solid.symm]

/-- An escaped character stays in the quoted text. -/
theorem Reader.scan_escape {mark : Char} (quotes : mark = '"' ∨ mark = '\'') (c : Char) :
    (Reader.inside mark).scan (Text.escape mark c) = (.inside mark, []) := by
  have solid : mark ≠ '\\' := by rcases quotes with rfl | rfl <;> decide
  have hex (width n : Nat) :
      (Reader.inside mark).scan (Text.hexDigits width n) = (.inside mark, []) := by
    refine Reader.scan_inside fun c member => ?_
    have letter := isAlphanum_of_mem_hexDigits member
    rcases quotes with rfl | rfl <;>
      exact ⟨fun same => absurd (same ▸ letter) (by decide),
        fun same => absurd (same ▸ letter) (by decide)⟩
  -- each form is a backslash and one character, then hexadecimal digits or nothing, or the
  -- character itself
  unfold Text.escape
  split
  · exact Reader.scan_inside_escaped solid c []
  · next other =>
      split
      · exact Reader.scan_inside_escaped solid _ []
      · split
        · exact Reader.scan_inside_escaped solid _ []
        · split
          · exact Reader.scan_inside_escaped solid _ []
          · split
            · exact Reader.scan_inside (by simpa using other)
            · unfold Text.codePointEscape
              split
              · rw [Reader.scan_inside_escaped solid, hex]
              · split <;> rw [Reader.scan_inside_escaped solid, hex]

/-- Nothing is used in a quoted text, whatever it holds. -/
theorem Reads.quote (text : String) : Reads known (Eq .fresh) (Text.quote text) (Eq .fresh) := by
  rintro _ rfl
  have quotes : Text.quoteMark text.toList = '"' ∨ Text.quoteMark text.toList = '\'' := by
    unfold Text.quoteMark
    split <;> simp
  have body (chars : List Char) {mark : Char} (quotes : mark = '"' ∨ mark = '\'') :
      (Reader.inside mark).scan (chars.flatMap (Text.escape mark)) = (.inside mark, []) := by
    induction chars with
    | nil => rfl
    | cons c chars ih =>
        rw [List.flatMap_cons, Reader.scan_append, Reader.scan_escape quotes, ih]
        rfl
  have opened {mark : Char} (quotes : mark = '"' ∨ mark = '\'') :
      Reader.fresh.step mark = .inside mark ∧ Reader.fresh.found mark = [] ∧
        (Reader.inside mark).scan [mark] = (.fresh, []) := by
    rcases quotes with rfl | rfl <;> decide
  obtain ⟨opens, none, closes⟩ := opened quotes
  rw [Text.quote, String.toList_ofList, Text.quoteChars, Reader.scan_cons, opens, none,
    Reader.scan_append, body _ quotes, closes]
  exact ⟨rfl, List.forall_mem_nil _⟩

/-- Nothing is used in a part of a quoted text. -/
theorem Reads.inside {mark : Char} (plain : ∀ c ∈ text.toList, c ≠ mark ∧ c ≠ '\\') :
    Reads known (Eq (.inside mark)) text (Eq (.inside mark)) := by
  rintro _ rfl
  rw [Reader.scan_inside plain]
  exact ⟨rfl, List.forall_mem_nil _⟩

/-- A dotted name does not end a quoted text. -/
theorem Reads.insideDotted (dotted : Source.Dotted text) :
    Reads known (Eq (.inside '"')) text (Eq (.inside '"')) := by
  refine .inside fun c member => ?_
  have part := dotted c member
  exact ⟨fun same => absurd (same ▸ part) (by decide), fun same => absurd (same ▸ part) (by decide)⟩

private theorem isAlphanum_of_mem_hexText {width n : Nat} {c : Char}
    (member : c ∈ (Text.hexText width n).toList) : c.isAlphanum = true := by
  change c ∈ (String.ofList (Text.hexDigits width n)).toList at member
  rw [String.toList_ofList] at member
  exact isAlphanum_of_mem_hexDigits member

/-- A hexadecimal numeral does not end a quoted text. -/
theorem Reads.insideHex (width n : Nat) :
    Reads known (Eq (.inside '"')) (Text.hexText width n) (Eq (.inside '"')) := by
  refine .inside fun c member => ?_
  have letter := isAlphanum_of_mem_hexText member
  exact ⟨fun same => absurd (same ▸ letter) (by decide),
    fun same => absurd (same ▸ letter) (by decide)⟩

/-- The digits of a hexadecimal numeral behind its mark. -/
theorem Reads.hexNumeral (width n : Nat) :
    Reads known (Eq { word := ['0', 'x'] }) (Text.hexText width n) (Reader.Settled known) := by
  refine .word (fun c member => ?_) (Reader.settled_of_isDigit rfl rfl ?_)
  · simp [isWordPart, isAlphanum_of_mem_hexText member]
  · intro c first
    obtain rfl : c = '0' := by simpa using first.symm
    rfl

/-- Nothing is used in a comment. -/
theorem Reads.remark (text : String) : Reads known (Eq .remark) text (Reader.Ends known) := by
  rintro _ rfl
  have each : ∀ c ∈ text.toList, ∀ reader, Reader.remark = reader →
      Reader.remark = reader.step c ∧ reader.found c = [] := by
    rintro c - _ rfl
    simp [Reader.remark, Reader.step, Reader.found, Reader.ending]
  obtain ⟨still, none⟩ := Reader.scan_of_kept each rfl
  rw [← still, none]
  exact ⟨by simp [Reader.Ends, Reader.remark, Reader.ending], List.forall_mem_nil _⟩

end Parts

end Wireform.Backend
