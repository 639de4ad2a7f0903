import Wireform.Proofs.Backend.Legible

/-! # Fields in generated lines

What a line of generated code says about a field is read off its text: whether it mentions the field
(`Wireform.Backend.Mentions`), whether it opens a block on a condition or a range
(`Wireform.Backend.OpensBlock`), and whether it may assign to the field
(`Wireform.Backend.Assigns`). Generated lines hold one dot at most, and a text with one dot mentions
the field after the dot or none (`Wireform.Backend.MentionsBefore.eq_of_field`). This needs that the
names of fields have no dots themselves, as those of the members of a schema have none
(`Wireform.Backend.undotted_of_ofTexts`).
-/

namespace Wireform.Backend

/-! ### Names without dots -/

/-- The characters of a name without dots. -/
def isPlainPart (c : Char) : Bool := Source.isNamePart c && c != '.'

/-- A name without dots. -/
def Undotted (name : String) : Prop := ∀ c ∈ name.toList, isPlainPart c = true

/-- A name without dots has no dot in it. -/
theorem Undotted.not_mem {name : String} (undotted : Undotted name) : '.' ∉ name.toList :=
  fun member => absurd (undotted '.' member) (by decide)

/-- The characters that follow fields in generated lines are no parts of names. -/
theorem not_isPlainPart : ∀ c ∈ [' ', '(', ')', '\x7b'], isPlainPart c = false := by
  have outside : ∀ c ∈ [' ', '(', ')', '\x7b'], Source.isNamePart c = false := by
    simp only [List.forall_mem_cons]
    exact ⟨rfl, rfl, rfl, rfl, List.forall_mem_nil _⟩
  intro c listed
  rw [isPlainPart, outside c listed, Bool.false_and]

/-- A name ends where the next character is no part of it. -/
theorem Undotted.split {name : String} (undotted : Undotted name) {after : List Char}
    (ends : ∀ c ∈ after.head?, isPlainPart c = false) :
    (name.toList ++ after).takeWhile isPlainPart = name.toList ∧
      (name.toList ++ after).dropWhile isPlainPart = after := by
  rw [List.takeWhile_append_of_pos undotted, List.dropWhile_append_of_pos undotted]
  cases after with
  | nil => exact ⟨List.append_nil _, rfl⟩
  | cons c after =>
      have other := ends c rfl
      simp [other]

private theorem Undotted.of_dotted {name : String} (dotted : Source.Dotted name)
    (plain : '.' ∉ name.toList) : Undotted name := by
  intro c member
  have other : c ≠ '.' := fun same => plain (same ▸ member)
  simp [isPlainPart, dotted c member, other]

/-- The names of lengths have no dots. -/
theorem Undotted.of_written {dimension : Dimension} (written : dimension.Written)
    (dynamic : dimension.isConstant = false) : Undotted dimension.size := by
  refine .of_dotted (written.dotted dynamic) ?_
  cases written with
  | constant digits => cases dynamic
  | @dynamic size name =>
      intro member
      unfold Parser.isLengthName at name
      split at name
      · cases name
      · next first rest shape =>
          have inside := List.all_eq_true.mp (Bool.and_eq_true_iff.mp name).2 '.' (shape ▸ member)
          exact absurd inside (by decide)

/-- Class names have no dots. -/
theorem not_mem_flatName_dot (name : String) : '.' ∉ (flatName name).toList := by
  intro member
  simp only [flatName, String.toList_ofList, List.mem_map] at member
  obtain ⟨c, -, same⟩ := member
  split at same
  · cases same
  · next other => exact other same

/-- Numerals of the library have no dots. -/
theorem not_mem_toString_dot (n : Nat) : '.' ∉ (toString n).toList :=
  fun member => absurd (isDigit_of_mem_toString member) (by decide)

/-- Written numbers have no dots. -/
theorem not_mem_write_dot {value : Int} {text : String} (written : Numeral.write value = .ok text) :
    '.' ∉ text.toList := by
  intro member
  rcases isDigit_or_sign_of_write written member with digit | sign
  · exact absurd digit (by decide)
  · exact absurd sign (by decide)

/-- The names of members are dotted names without dots. -/
theorem undotted_of_ofTexts {texts : List String} {schema : Schema}
    (read : Schema.ofTexts texts = .ok schema) {struct : Struct}
    (listed : struct ∈ schema.structs) :
    ∀ member ∈ struct.members, Undotted member.name := by
  intro member present
  refine .of_dotted ((Schema.readFrom_of_ofTexts read struct listed).members member present).name ?_
  obtain ⟨package, taken, derived⟩ := Schema.derived_of_ofTexts read listed
  exact derived.isStruct.undotted member present

/-! ### Fields in lines -/

/-- A text that names a field of `owner`, followed by `after`. -/
structure MentionsBefore (owner name : String) (text after : List Char) : Prop where
  whole : ∃ before, text = (before ++ owner.toList) ++ '.' :: (name.toList ++ after)
  undotted : Undotted name
  ends : ∀ c ∈ after.head?, isPlainPart c = false

/-- A text that names a field of `owner`. -/
def Mentions (owner name text : String) : Prop :=
  ∃ after, MentionsBefore owner name text.toList after

/-- The words that open a block on a condition or a range. -/
def blockWords : List String := ["if ", "for ", "while "]

/-- A line that opens a block on a condition or a range. -/
def OpensBlock (text : String) : Prop := ∃ word ∈ blockWords, word.toList <+: text.toList

/-- A text that may assign to a field of `owner`: an equals sign follows the field, or the field is
what a loop runs with. -/
def Assigns (owner name text : String) : Prop :=
  ∃ after, MentionsBefore owner name text.toList after ∧
    ('=' ∈ after ∨ "for ".toList <+: text.toList ∧ " in ".toList <:+: after)

/-- A text without its first letter has no word for what a loop runs over. -/
theorem not_infix_in {rest : List Char} (absent : 'i' ∉ rest) : ¬ " in ".toList <:+: rest :=
  fun within => absent (within.subset (by simp))

/-- To assign to a field is to mention it. -/
theorem Assigns.mentions {owner name text : String} (assigns : Assigns owner name text) :
    Mentions owner name text :=
  assigns.imp fun _ found => found.1

/-- A text without dots mentions no field. -/
theorem not_mentions_of_undotted {owner name text : String} (undotted : '.' ∉ text.toList) :
    ¬ Mentions owner name text := by
  rintro ⟨after, ⟨before, whole⟩, -, -⟩
  exact undotted (whole ▸ List.mem_append_right _ List.mem_cons_self)

/-- A text with one dot mentions what stands after the dot, or nothing. -/
theorem MentionsBefore.eq_of_dot {owner name : String} {text front tail after : List Char}
    (mentioned : MentionsBefore owner name text after) (shape : text = front ++ '.' :: tail)
    (frontPlain : '.' ∉ front) (tailPlain : '.' ∉ tail) :
    name.toList = tail.takeWhile isPlainPart ∧ after = tail.dropWhile isPlainPart := by
  obtain ⟨⟨before, whole⟩, undotted, ends⟩ := mentioned
  obtain ⟨-, -, rfl⟩ :=
    (List.append_cons_inj_of_notMem frontPlain tailPlain).mp (shape.symm.trans whole)
  obtain ⟨taken, dropped⟩ := undotted.split ends
  exact ⟨taken.symm, dropped.symm⟩

/-- A text with one dot and a field after it mentions that field only. -/
theorem MentionsBefore.eq_of_field {owner name field : String} {text front rest after : List Char}
    (mentioned : MentionsBefore owner name text after) (undotted : Undotted field)
    (shape : text = front ++ '.' :: (field.toList ++ rest)) (frontPlain : '.' ∉ front)
    (restPlain : '.' ∉ rest) (ends : ∀ c ∈ rest.head?, isPlainPart c = false) :
    name = field ∧ after = rest := by
  have tailPlain : '.' ∉ field.toList ++ rest := by
    rw [List.mem_append, not_or]
    exact ⟨undotted.not_mem, restPlain⟩
  obtain ⟨names, afters⟩ := mentioned.eq_of_dot shape frontPlain tailPlain
  obtain ⟨taken, dropped⟩ := undotted.split ends
  exact ⟨String.toList_inj.mp (names.trans taken), afters.trans dropped⟩

/-- Where a text begins tells that it opens no block. -/
theorem not_opensBlock_of_head {text : String} {c : Char} (starts : text.toList.head? = some c)
    (noIf : c ≠ 'i') (noFor : c ≠ 'f') (noWhile : c ≠ 'w') : ¬ OpensBlock text := by
  obtain ⟨rest, shape⟩ := List.head?_eq_some_iff.mp starts
  rintro ⟨word, listed, opening⟩
  rw [shape] at opening
  simp only [blockWords, List.mem_cons, List.not_mem_nil, or_false] at listed
  rcases listed with rfl | rfl | rfl
  · exact noIf (List.cons_prefix_cons.mp opening).1.symm
  · exact noFor (List.cons_prefix_cons.mp opening).1.symm
  · exact noWhile (List.cons_prefix_cons.mp opening).1.symm

/-- A text that opens no block and has no equals sign behind its one dot assigns to nothing. -/
theorem not_assigns_of_flat {owner name text : String} (flat : ¬ OpensBlock text)
    {front tail : List Char} (shape : text.toList = front ++ '.' :: tail) (frontPlain : '.' ∉ front)
    (tailPlain : '.' ∉ tail ∧ '=' ∉ tail) : ¬ Assigns owner name text := by
  rintro ⟨after, mentioned, equals | ⟨loops, -⟩⟩
  · obtain ⟨-, rfl⟩ := mentioned.eq_of_dot shape frontPlain tailPlain.1
    exact tailPlain.2 ((List.dropWhile_sublist _).subset equals)
  · exact flat ⟨"for ", by decide, loops⟩

/-- A text that opens no block and has no equals sign at all assigns to nothing. -/
theorem not_assigns_of_no_equals {owner name text : String} (flat : ¬ OpensBlock text)
    (plain : '=' ∉ text.toList) : ¬ Assigns owner name text := by
  rintro ⟨after, ⟨⟨before, whole⟩, -, -⟩, equals | ⟨loops, -⟩⟩
  · rw [whole] at plain
    exact plain (List.mem_append_right _
      (List.mem_cons_of_mem _ (List.mem_append_right _ equals)))
  · exact flat ⟨"for ", by decide, loops⟩

end Wireform.Backend
