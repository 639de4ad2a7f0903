import Wireform.Proofs.Outcome
import Wireform.Proofs.Source.Acceptance

/-! # Names that type definition files give

The rules derive every struct of a schema from the words of a text, inside a package that is one of
these words (`Wireform.Schema.derived_of_ofTexts`). So every name of a struct is a word, or a word
qualified by another, and a property of words that qualification keeps holds of all of them
(`Wireform.Source.Derived.readFrom`). In particular, the names of a schema hold only characters that
may stand in a dotted name (`Wireform.Schema.readFrom_of_ofTexts`). Every dimension is written as a
constant or as the name of a length, every struct has a member, and no member has a dot in its name.
-/

namespace Wireform

/-- A dimension as the definition of a member can write it. -/
inductive Dimension.Written : Dimension → Prop
  | constant {size : String} (digits : Parser.isConstantSize size.toList = true) :
      Written (.constant size)
  | dynamic {size : String} (name : Parser.isLengthName size.toList = true) :
      Written (.dynamic size)

/-- A member whose names have a property and whose dimensions are written. -/
structure Member.ReadFrom (named : String → Prop) (member : Member) : Prop where
  name : named member.name
  type : ∀ type, member.type = .compound type → named type
  dimensions : ∀ dimension ∈ member.dimensions, dimension.Written

/-- A struct whose names have a property, with the base hash of its signature. -/
structure Struct.ReadFrom (named : String → Prop) (struct : Struct) : Prop where
  name : named struct.name
  members : ∀ member ∈ struct.members, member.ReadFrom named
  baseHash : struct.baseHash = struct.signatureHash.toNat

/-! ### Names go back to words -/

/-- A property that a name inside a package has when the package and the name have it. -/
def Parser.KeptByQualifying (named : String → Prop) : Prop :=
  ∀ package name, named package → named name → named (package ++ "." ++ name)

namespace Grammar

variable {named : String → Prop} {package : String} {taken : List Token}

private theorem IsSize.written {text : String} {dimension : Dimension}
    (size : IsSize text dimension) :
    dimension.Written := by
  have read : Parser.dimensionOf ⟨.dimension, text, 0⟩ = .ok dimension :=
    Parser.dimensionOf_eq_ok_iff.mpr size
  unfold Parser.dimensionOf at read
  split at read
  · next digits =>
      obtain rfl := Except.ok.inj read
      exact .constant digits
  · split at read
    · next name =>
        obtain rfl := Except.ok.inj read
        exact .dynamic name
    · cases read

section Words

variable (qualifies : Parser.KeptByQualifying named) (inside : package = "" ∨ named package)
  (words : ∀ token ∈ taken, token.kind = .identifier → named token.value)

include qualifies inside

private theorem named_qualify {name : String} (word : named name) :
    named (Parser.qualify package name) := by
  unfold Parser.qualify
  split
  · exact word
  · next outside =>
      simp only [Bool.or_eq_true, not_or, String.isEmpty_iff] at outside
      exact qualifies _ _ (inside.resolve_left outside.2) word

include words

private theorem IsMember.readFrom {member : Member} (derived : IsMember package taken member) :
    member.ReadFrom named := by
  cases derived with
  | @mk type name stop sizes dimensions typed identifier plain sized stopped =>
      refine ⟨words name (by simp) identifier, ?_, ?_⟩
      · intro other same
        unfold typeOf at same
        split at same
        · cases same
        · obtain rfl := FieldType.compound.inj same
          exact named_qualify qualifies inside (words type (by simp) typed)
      · intro dimension listed
        obtain ⟨_, -, read⟩ := sized.exists_of_mem dimension listed
        cases read with
        | mk kind size => exact size.written

private theorem IsStruct.readFrom {ends : Token → Prop} {struct : Struct}
    (derived : IsStruct ends package taken struct) : struct.ReadFrom named := by
  cases derived with
  | @mk keyword name opening closing body ending members defined identifier plain opened filled =>
      refine ⟨named_qualify qualifies inside (words name (by simp) identifier), ?_, rfl⟩
      intro member listed
      obtain ⟨first, part, read⟩ := filled.exists_of_mem member listed
      refine read.readFrom qualifies inside fun token known => words token ?_
      simp [part known]

end Words

/-- Every struct has a member. -/
theorem IsStruct.occupied {ends : Token → Prop} {struct : Struct}
    (derived : IsStruct ends package taken struct) : struct.members ≠ [] := by
  cases derived with
  | mk defined named plain opened filled occupied => exact occupied

/-- No member has a dot in its name. -/
theorem IsStruct.undotted {ends : Token → Prop} {struct : Struct}
    (derived : IsStruct ends package taken struct) :
    ∀ member ∈ struct.members, '.' ∉ member.name.toList := by
  cases derived with
  | mk defined named plain opened filled =>
      intro member listed
      obtain ⟨first, -, read⟩ := filled.exists_of_mem member listed
      cases read with
      | mk typed named plain => exact plain

end Grammar

/-- A struct that the rules derive from words, in a package that is a word. -/
structure Source.Derived (package : String) (taken : List Token) (struct : Struct) : Prop where
  inside : package = "" ∨ Named package
  words : ∀ token ∈ taken, token.kind = .identifier → Named token.value
  isStruct : Grammar.IsStruct Parser.EndsStruct package taken struct

namespace Source

/-- A package is named by a word, or not at all. -/
theorem inside_of_isHeader {header : List Token} {package : String}
    (headed : Grammar.IsHeader header package)
    (named : ∀ token ∈ header, token.kind = .identifier → Named token.value) :
    package = "" ∨ Named package := by
  cases headed with
  | absent => exact .inl rfl
  | @clause keyword name stop given identifier stopped =>
      exact .inr (named name (by simp) identifier)

/-- **The structs of a text are derived from its words.** -/
theorem derived_of_structs {text : String} {found : List Struct}
    (run : structs text = .ok found) {struct : Struct} (listed : struct ∈ found) :
    ∃ package taken, Derived package taken struct := by
  obtain ⟨tokens, lexed, parsed⟩ := Parser.structs_eq_ok_iff.mp run
  have words := named_of_mem_tokenizeFrom lexed
  cases (Parser.definitions_eq_ok_iff lexed).mp parsed with
  | @mk header body package _ stop headed filled stopped =>
      obtain ⟨taken, inside, derived⟩ := filled.exists_of_mem struct listed
      refine ⟨package, taken, inside_of_isHeader headed ?_, ?_, derived⟩
      · exact fun token member => words token (List.mem_append_left _ member)
      · exact fun token member => words token (by simp [inside member])

/-- A property of words that qualification keeps holds of all names of a struct. -/
theorem Derived.readFrom {named : String → Prop} {package : String} {taken : List Token}
    {struct : Struct} (derived : Derived package taken struct)
    (qualifies : Parser.KeptByQualifying named) (words : ∀ name, Named name → named name) :
    struct.ReadFrom named :=
  derived.isStruct.readFrom qualifies (derived.inside.imp_right (words package))
    fun token member identifier => words token.value (derived.words token member identifier)

end Source

/-! ### Characters of names -/

namespace Source

/-- A text of characters that may stand in a dotted name. -/
def Dotted (name : String) : Prop := ∀ c ∈ name.toList, isNamePart c = true

private theorem dotted_append {first second : String} (left : Dotted first)
    (right : Dotted second) :
    Dotted (first ++ second) := by
  intro c member
  rw [String.toList_append, List.mem_append] at member
  exact member.elim (left c) (right c)

private theorem dotted_kept : Parser.KeptByQualifying Dotted := by
  intro package name left right
  refine dotted_append (dotted_append left ?_) right
  intro c member
  obtain rfl : c = '.' := by simpa using member
  rfl

end Source

/-- The name of a length is a dotted name. -/
theorem Dimension.Written.dotted {dimension : Dimension} (written : dimension.Written)
    (dynamic : dimension.isConstant = false) : Source.Dotted dimension.size := by
  cases written with
  | constant digits => cases dynamic
  | @dynamic size name =>
      intro c member
      unfold Parser.isLengthName at name
      split at name
      · cases name
      · next first rest shape =>
          have inside := List.all_eq_true.mp (Bool.and_eq_true_iff.mp name).2 c (shape ▸ member)
          simp only [Source.isNamePart, inside, Bool.true_or]

namespace Schema

/-- The structs of a text have dotted names. -/
theorem readFrom_of_structs {text : String} {structs : List Struct}
    (run : Source.structs text = .ok structs) :
    ∀ struct ∈ structs, struct.ReadFrom Source.Dotted := by
  intro struct listed
  obtain ⟨package, taken, derived⟩ := Source.derived_of_structs run listed
  exact derived.readFrom Source.dotted_kept fun _ word => word.1.parts

/-- The structs of some texts are those of each text, one after the other. -/
theorem gather_eq_ok_iff {texts : List String} {schema : Schema} :
    gather texts = .ok schema ↔
      ∃ files, texts.mapM Source.structs = .ok files ∧ schema.structs = files.flatten := by
  induction texts generalizing schema with
  | nil =>
      constructor
      · intro run
        obtain rfl := Except.ok.inj run
        exact ⟨[], rfl, rfl⟩
      · rintro ⟨files, run, structs⟩
        obtain rfl := Outcome.mapM_nil_eq_ok.mp run
        cases schema
        obtain rfl := structs
        rfl
  | cons text texts ih =>
      unfold gather
      constructor
      · intro run
        split at run
        · cases run
        · next structs read =>
            split at run
            · cases run
            · next rest gathered =>
                obtain rfl := Except.ok.inj run
                obtain ⟨files, readAll, same⟩ := ih.mp gathered
                refine ⟨structs :: files, ?_, ?_⟩
                · exact Outcome.mapM_cons_eq_ok.mpr ⟨structs, files, read, readAll, rfl⟩
                · rw [List.flatten_cons, ← same]
      · rintro ⟨files, run, same⟩
        obtain ⟨structs, rest, read, readAll, rfl⟩ := Outcome.mapM_cons_eq_ok.mp run
        have gathered : gather texts = .ok ⟨rest.flatten⟩ := ih.mpr ⟨rest, readAll, rfl⟩
        rw [read, gathered]
        cases schema
        obtain rfl := same
        rfl

/-- A schema of some texts is gathered from them, and it is valid. -/
theorem ofTexts_eq_ok_iff {texts : List String} {schema : Schema} :
    ofTexts texts = .ok schema ↔ gather texts = .ok schema ∧ schema.validate = .ok () := by
  unfold ofTexts
  constructor
  · intro run
    split at run
    · cases run
    · next found gathered =>
        split at run
        · cases run
        · next valid =>
            obtain rfl := Except.ok.inj run
            exact ⟨gathered, valid⟩
  · rintro ⟨gathered, valid⟩
    rw [gathered]
    dsimp only
    rw [valid]

/-- **The structs of a schema are derived from words.** -/
theorem derived_of_ofTexts {texts : List String} {schema : Schema}
    (run : ofTexts texts = .ok schema) {struct : Struct} (listed : struct ∈ schema.structs) :
    ∃ package taken, Source.Derived package taken struct := by
  obtain ⟨gathered, -⟩ := ofTexts_eq_ok_iff.mp run
  obtain ⟨files, readAll, structs⟩ := gather_eq_ok_iff.mp gathered
  rw [structs] at listed
  obtain ⟨file, present, inside⟩ := List.mem_flatten.mp listed
  obtain ⟨text, -, read⟩ := Outcome.exists_of_mem_mapM readAll present
  exact Source.derived_of_structs read inside

/-- The names in a schema of some texts are dotted names, its dimensions are written, and its base
hashes are those of the signatures. -/
theorem readFrom_of_ofTexts {texts : List String} {schema : Schema}
    (run : ofTexts texts = .ok schema) :
    ∀ struct ∈ schema.structs, struct.ReadFrom Source.Dotted := by
  intro struct listed
  obtain ⟨package, taken, derived⟩ := derived_of_ofTexts run listed
  exact derived.readFrom Source.dotted_kept fun _ word => word.1.parts

end Schema

end Wireform
