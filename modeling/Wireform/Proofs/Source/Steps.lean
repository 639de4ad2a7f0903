import Wireform.Proofs.Source.Grammar
import Wireform.Proofs.Text.Classes

/-! # What the steps of the reader take

A step that succeeds moves the cursor over some tokens (`Wireform.Cursor.Passes`), and these are
exactly the tokens of one rule of the grammar, with what the rule gives as its result
(`Wireform.Parser.member_eq_ok_iff`, `Wireform.Parser.isStruct_of_struct`). Loops look one token
ahead: dimensions end before a token of another kind, members before a closing brace.
-/

namespace Wireform

open Grammar

/-- A cursor that has moved over some tokens. -/
structure Cursor.Passes (cursor : Cursor) (taken : List Token) (after : Cursor) : Prop where
  rest : cursor.rest = taken ++ after.rest
  position : after.position = cursor.position + taken.length
  package : after.package = cursor.package

namespace Cursor

private theorem passes_nil {cursor after : Cursor} : cursor.Passes [] after ↔ after = cursor := by
  constructor
  · rintro ⟨rest, position, package⟩
    cases cursor
    cases after
    simp_all
  · rintro rfl
    exact ⟨rfl, rfl, rfl⟩

private theorem passes_singleton {cursor after : Cursor} {token : Token} :
    cursor.Passes [token] after ↔ ∃ rest, cursor.rest = token :: rest ∧
      after = { cursor with rest := rest, position := cursor.position + 1 } := by
  constructor
  · rintro ⟨ahead, position, package⟩
    cases after
    exact ⟨_, ahead, by simp_all⟩
  · rintro ⟨rest, ahead, rfl⟩
    exact ⟨ahead, rfl, rfl⟩

private theorem Passes.append {cursor between after : Cursor} {first second : List Token}
    (left : cursor.Passes first between) (right : between.Passes second after) :
    cursor.Passes (first ++ second) after := by
  refine ⟨?_, ?_, right.package.trans left.package⟩
  · rw [left.rest, right.rest, List.append_assoc]
  · rw [right.position, left.position, List.length_append, Nat.add_assoc]

private theorem Passes.inPackage {cursor after : Cursor} {taken : List Token}
    (passes : cursor.Passes taken after) (package : String) :
    Passes { cursor with package } taken { after with package } :=
  ⟨passes.rest, passes.position, rfl⟩

private theorem passes_append {cursor after : Cursor} {first second : List Token} :
    cursor.Passes (first ++ second) after ↔
      ∃ between, cursor.Passes first between ∧ between.Passes second after := by
  constructor
  · intro passes
    refine ⟨⟨second ++ after.rest, cursor.position + first.length, cursor.package⟩, ?_, ?_⟩
    · exact ⟨by rw [passes.rest, List.append_assoc], rfl, rfl⟩
    · refine ⟨rfl, ?_, passes.package⟩
      rw [passes.position, List.length_append, Nat.add_assoc]
  · rintro ⟨between, left, right⟩
    exact left.append right

private theorem passes_cons {cursor after : Cursor} {token : Token} {rest : List Token} :
    cursor.Passes (token :: rest) after ↔
      ∃ between, cursor.Passes [token] between ∧ between.Passes rest after :=
  @passes_append cursor after [token] rest

end Cursor

namespace Parser

/-! ### What each step takes -/

private theorem pure_eq_ok_iff {α : Type} {value result : α} {cursor after : Cursor} :
    (pure value : Parser α) cursor = .ok result after ↔ value = result ∧ after = cursor := by
  constructor
  · intro run
    obtain ⟨rfl, rfl⟩ := EStateM.Result.ok.inj run
    exact ⟨rfl, rfl⟩
  · rintro ⟨rfl, rfl⟩
    rfl

private theorem get_eq_ok_iff {cursor after found : Cursor} :
    (get : Parser Cursor) cursor = .ok found after ↔ found = cursor ∧ after = cursor := by
  constructor
  · intro run
    obtain ⟨rfl, rfl⟩ := EStateM.Result.ok.inj run
    exact ⟨rfl, rfl⟩
  · rintro ⟨rfl, rfl⟩
    rfl

private theorem refuse_eq_ok_iff {condition : Bool} {line : Nat} {cause : SourceCause}
    {value : Unit}
    {cursor after : Cursor} :
    refuse condition line cause cursor = .ok value after ↔ condition = false ∧ after = cursor := by
  cases condition with
  | true =>
      constructor
      · intro run
        cases run
      · rintro ⟨impossible, -⟩
        cases impossible
  | false =>
      rw [refuse, if_neg Bool.false_ne_true, pure_eq_ok_iff]
      simp

private theorem mismatch_eq_none_iff {kind : TokenKind} {value : Option String} {token : Token} :
    mismatch kind value token = none ↔
      token.kind = kind ∧ ∀ wanted, value = some wanted → token.value = wanted := by
  unfold mismatch
  by_cases same : token.kind = kind
  · cases value <;> simp [same]
  · simp [same]

private theorem expect_eq_ok_iff {kind : TokenKind} {value : Option String} {token : Token}
    {cursor after : Cursor} :
    expect kind value cursor = .ok token after ↔
      cursor.Passes [token] after ∧ token.kind = kind ∧
        ∀ wanted, value = some wanted → token.value = wanted := by
  rw [← mismatch_eq_none_iff, Cursor.passes_singleton]
  unfold expect advance
  constructor
  · intro run
    cases ahead : cursor.rest with
    | nil => simp [ahead] at run
    | cons first rest =>
        simp only [ahead] at run
        cases fault : mismatch kind value first with
        | some cause => simp [fault] at run
        | none =>
            simp only [fault] at run
            obtain ⟨rfl, rfl⟩ := EStateM.Result.ok.inj run
            exact ⟨⟨rest, rfl, rfl⟩, fault⟩
  · rintro ⟨⟨rest, ahead, rfl⟩, fits⟩
    simp only [ahead, fits]

private theorem expect_kind_eq_ok_iff {kind : TokenKind} {token : Token} {cursor after : Cursor} :
    expect kind none cursor = .ok token after ↔
      cursor.Passes [token] after ∧ token.kind = kind := by
  simp [expect_eq_ok_iff]

private theorem expect_value_eq_ok_iff {kind : TokenKind} {value : String} {token : Token}
    {cursor after : Cursor} :
    expect kind (some value) cursor = .ok token after ↔
      cursor.Passes [token] after ∧ token.Is kind value := by
  simp [expect_eq_ok_iff, Token.Is]

private theorem isQualified_eq_false_iff {name : String} :
    isQualified name = false ↔ '.' ∉ name.toList := by
  rw [isQualified, Bool.eq_false_iff, Ne, List.contains_iff_mem]

private theorem fieldType_eq_ok_iff {type : FieldType} {cursor after : Cursor} :
    fieldType cursor = .ok type after ↔
      ∃ token, cursor.Passes [token] after ∧ token.kind = .identifier ∧
        type = typeOf cursor.package token.value := by
  simp only [fieldType, bind_eq_ok_iff, expect_kind_eq_ok_iff]
  constructor
  · rintro ⟨token, between, ⟨passes, kind⟩, rest⟩
    refine ⟨token, ?_⟩
    cases known : Primitive.ofName? token.value with
    | some p =>
        rw [known, pure_eq_ok_iff] at rest
        obtain ⟨rfl, rfl⟩ := rest
        exact ⟨passes, kind, by rw [typeOf, known]⟩
    | none =>
        simp only [known, bind_eq_ok_iff, get_eq_ok_iff, pure_eq_ok_iff] at rest
        obtain ⟨found, same, ⟨rfl, rfl⟩, rfl, rfl⟩ := rest
        exact ⟨passes, kind, by rw [typeOf, known, passes.package]⟩
  · rintro ⟨token, passes, kind, rfl⟩
    refine ⟨token, after, ⟨passes, kind⟩, ?_⟩
    cases known : Primitive.ofName? token.value with
    | some p => rw [typeOf, known, pure_eq_ok_iff]; exact ⟨rfl, rfl⟩
    | none =>
        simp only [bind_eq_ok_iff, get_eq_ok_iff, pure_eq_ok_iff]
        exact ⟨after, after, ⟨rfl, rfl⟩, by rw [typeOf, known, passes.package], rfl⟩

/-- Digits do not start a name, so a text is the size of one dimension only. -/
theorem dimensionOf_eq_ok_iff {token : Token} {dimension : Dimension} :
    dimensionOf token = .ok dimension ↔ IsSize token.value dimension := by
  have digits : isConstantSize token.value.toList = true ↔
      token.value ≠ "" ∧ ∀ c ∈ token.value.toList, Text.isDigit c = true := by
    simp [isConstantSize]
  unfold dimensionOf
  constructor
  · intro run
    split at run
    · next constant =>
        obtain rfl := Except.ok.inj run
        obtain ⟨occupied, each⟩ := digits.mp constant
        exact .constant occupied each
    · split at run
      · next name =>
          obtain rfl := Except.ok.inj run
          unfold isLengthName at name
          split at name
          · cases name
          · next first rest spelling =>
              simp only [Source.isNameStart, Bool.and_eq_true, Bool.or_eq_true, beq_iff_eq,
                List.all_eq_true] at name
              exact .dynamic spelling name.1 (spelling ▸ name.2)
      · cases run
  · intro size
    cases size with
    | constant occupied each => rw [if_pos (digits.mpr ⟨occupied, each⟩)]
    | @dynamic first rest spelling start parts =>
        have notDigit : Text.isDigit first = false := by
          rcases start with letter | rfl
          · exact Text.isDigit_eq_false_of_isLetter letter
          · decide
        have notConstant : ¬isConstantSize token.value.toList = true := by
          intro constant
          have digit := (digits.mp constant).2 first (by rw [spelling]; exact List.mem_cons_self)
          rw [notDigit] at digit
          cases digit
        have name : isLengthName token.value.toList = true := by
          rw [spelling] at parts ⊢
          simp only [isLengthName, Source.isNameStart, Bool.and_eq_true, Bool.or_eq_true,
            beq_iff_eq, List.all_eq_true]
          exact ⟨start, parts⟩
        rw [if_neg notConstant, if_pos name]

private theorem dimensions_eq_ok_iff {found : List Dimension} {cursor after : Cursor} :
    dimensions cursor = .ok found after ↔
      (∃ taken, Star IsDimension taken found ∧ cursor.Passes taken after) ∧
        ∃ token rest, after.rest = token :: rest ∧ token.kind ≠ .dimension := by
  constructor
  · intro run
    fun_induction dimensions cursor generalizing found after with
    | case1 => cases run
    | case2 => cases run
    | case3 => cases run
    | case4 cursor token rest ahead kind next dimension read others between tail =>
        rename_i ih
        obtain ⟨rfl, rfl⟩ := EStateM.Result.ok.inj run
        obtain ⟨⟨taken, derived, passes⟩, stop⟩ := ih tail
        have first : cursor.Passes [token] next := Cursor.passes_singleton.mpr ⟨rest, ahead, rfl⟩
        exact ⟨⟨token :: taken, .cons (.mk kind (dimensionOf_eq_ok_iff.mp read)) derived,
          first.append passes⟩, stop⟩
    | case5 cursor token rest ahead kind =>
        obtain ⟨rfl, rfl⟩ := EStateM.Result.ok.inj run
        exact ⟨⟨[], .nil, Cursor.passes_nil.mpr rfl⟩, token, rest, ahead, kind⟩
  · rintro ⟨⟨taken, derived, passes⟩, token, rest, ahead, kind⟩
    induction derived generalizing cursor with
    | nil =>
        obtain rfl := Cursor.passes_nil.mp passes
        unfold dimensions
        split
        · next nothing => cases ahead.symm.trans nothing
        · next first others shape =>
            obtain ⟨rfl, rfl⟩ := List.cons.inj (ahead.symm.trans shape)
            rw [if_neg kind]
    | @cons first others dimension dimensions head tail ih =>
        obtain ⟨between, left, right⟩ := Cursor.passes_append.mp passes
        cases head with
        | mk sized size =>
            obtain ⟨later, before, rfl⟩ := Cursor.passes_singleton.mp left
            unfold Parser.dimensions
            split
            · next nothing => cases before.symm.trans nothing
            · next first rest shape =>
                obtain ⟨rfl, rfl⟩ := List.cons.inj (before.symm.trans shape)
                simp only [sized, ↓reduceIte, dimensionOf_eq_ok_iff.mpr size, ih right]

private theorem member_eq_ok_iff {found : Member} {cursor after : Cursor} :
    member cursor = .ok found after ↔
      ∃ taken, IsMember cursor.package taken found ∧ cursor.Passes taken after := by
  constructor
  · intro run
    obtain ⟨_, typed, first, fromName⟩ := bind_eq_ok_iff.mp run
    obtain ⟨type, passType, kind, rfl⟩ := fieldType_eq_ok_iff.mp first
    obtain ⟨name, named, second, fromCheck⟩ := bind_eq_ok_iff.mp fromName
    obtain ⟨passName, identifier⟩ := expect_kind_eq_ok_iff.mp second
    obtain ⟨_, checked, accepted, fromSizes⟩ := bind_eq_ok_iff.mp fromCheck
    obtain ⟨plain, rfl⟩ := refuse_eq_ok_iff.mp accepted
    obtain ⟨dimensions, sized, third, fromStop⟩ := bind_eq_ok_iff.mp fromSizes
    obtain ⟨⟨sizes, derived, passSizes⟩, -⟩ := dimensions_eq_ok_iff.mp third
    obtain ⟨stop, stopped, last, made⟩ := bind_eq_ok_iff.mp fromStop
    obtain ⟨passStop, ends⟩ := expect_value_eq_ok_iff.mp last
    obtain ⟨rfl, rfl⟩ := pure_eq_ok_iff.mp made
    refine ⟨_, .mk kind identifier (isQualified_eq_false_iff.mp plain) derived ends, ?_⟩
    exact passType.append (passName.append (passSizes.append passStop))
  · rintro ⟨taken, derived, passes⟩
    cases derived with
    | @mk type name stop sizes dimensions kind identifier plain sized ends =>
        obtain ⟨typed, passType, passes⟩ := Cursor.passes_cons.mp passes
        obtain ⟨named, passName, passes⟩ := Cursor.passes_cons.mp passes
        obtain ⟨between, passSizes, passStop⟩ := Cursor.passes_append.mp passes
        have unsized : stop.kind ≠ .dimension := by rw [ends.1]; exact nofun
        refine bind_eq_ok_iff.mpr ⟨_, typed,
          fieldType_eq_ok_iff.mpr ⟨type, passType, kind, rfl⟩, ?_⟩
        refine bind_eq_ok_iff.mpr ⟨name, named,
          expect_kind_eq_ok_iff.mpr ⟨passName, identifier⟩, ?_⟩
        refine bind_eq_ok_iff.mpr ⟨(), named,
          refuse_eq_ok_iff.mpr ⟨isQualified_eq_false_iff.mpr plain, rfl⟩, ?_⟩
        refine bind_eq_ok_iff.mpr ⟨dimensions, between, dimensions_eq_ok_iff.mpr
          ⟨⟨sizes, sized, passSizes⟩, stop, _, passStop.rest, unsized⟩, ?_⟩
        exact bind_eq_ok_iff.mpr ⟨stop, after, expect_value_eq_ok_iff.mpr ⟨passStop, ends⟩, rfl⟩

private theorem optionalSemicolon_eq_ok_iff {value : Unit} {cursor after : Cursor} :
    optionalSemicolon cursor = .ok value after ↔
      (after = cursor ∧ ∃ token rest, cursor.rest = token :: rest ∧ token.value ≠ ";") ∨
        ∃ token, token.value = ";" ∧ cursor.Passes [token] after := by
  unfold optionalSemicolon
  constructor
  · intro run
    split at run
    · cases run
    · next token rest ahead =>
        split at run
        · next semicolon =>
            obtain ⟨-, rfl⟩ := EStateM.Result.ok.inj run
            exact .inr ⟨token, semicolon, Cursor.passes_singleton.mpr ⟨rest, ahead, rfl⟩⟩
        · next other =>
            obtain ⟨-, rfl⟩ := EStateM.Result.ok.inj run
            exact .inl ⟨rfl, token, rest, ahead, other⟩
  · rintro (⟨rfl, token, rest, ahead, other⟩ | ⟨token, semicolon, passes⟩)
    · simp [ahead, other]
    · obtain ⟨rest, ahead, rfl⟩ := Cursor.passes_singleton.mp passes
      simp [ahead, semicolon]

/-- The reader stops the members of a struct at any closing brace, so no identifier may be one. -/
def NoBraceNames (tokens : List Token) : Prop :=
  ∀ token ∈ tokens, token.kind = .identifier → token.value ≠ "\x7d"

/-- What is ahead after a step was ahead before it. -/
theorem NoBraceNames.passes {cursor after : Cursor} {taken : List Token}
    (plain : NoBraceNames cursor.rest) (passes : cursor.Passes taken after) :
    NoBraceNames after.rest := by
  intro token ahead
  exact plain token (passes.rest ▸ List.mem_append_right taken ahead)

private theorem members_eq_ok_iff {struct : String} {found : List Member} {cursor after : Cursor}
    (plain : NoBraceNames cursor.rest) :
    members struct cursor = .ok found after ↔
      (∃ taken, Star (IsMember cursor.package) taken found ∧ cursor.Passes taken after) ∧
        ∃ token rest, after.rest = token :: rest ∧ token.value = "\x7d" := by
  constructor
  · intro run
    fun_induction members struct cursor generalizing found after with
    | case1 => cases run
    | case2 cursor token rest ahead brace =>
        obtain ⟨rfl, rfl⟩ := EStateM.Result.ok.inj run
        exact ⟨⟨[], .nil, Cursor.passes_nil.mpr rfl⟩, token, rest, ahead, brace⟩
    | case3 => cases run
    | case4 => cases run
    | case5 => cases run
    | case6 cursor _ _ _ _ _ first between read others final tail ih =>
        obtain ⟨rfl, rfl⟩ := EStateM.Result.ok.inj run
        obtain ⟨taken, derived, passes⟩ := member_eq_ok_iff.mp read
        obtain ⟨⟨later, rest, passRest⟩, stop⟩ := ih (plain.passes passes) tail
        rw [passes.package] at rest
        exact ⟨⟨taken ++ later, .cons derived rest, passes.append passRest⟩, stop⟩
  · rintro ⟨⟨taken, derived, passes⟩, token, rest, ahead, brace⟩
    generalize package : cursor.package = name at derived
    induction derived generalizing cursor with
    | nil =>
        obtain rfl := Cursor.passes_nil.mp passes
        unfold members
        split
        · next nothing => cases ahead.symm.trans nothing
        · next first others shape =>
            obtain ⟨rfl, rfl⟩ := List.cons.inj (ahead.symm.trans shape)
            rw [if_pos brace]
    | @cons first others value values head tail ih =>
        obtain ⟨between, left, right⟩ := Cursor.passes_append.mp passes
        have read := member_eq_ok_iff.mpr ⟨first, package ▸ head, left⟩
        have rest := ih (plain.passes left) right (left.package.trans package)
        unfold members
        split
        · next nothing =>
            cases head
            cases left.rest.symm.trans nothing
        · next ahead others shape =>
            -- a member starts with an identifier
            have start : ahead.kind = .identifier := by
              cases head with
              | mk typed => exact (List.cons.inj (left.rest.symm.trans shape)).1 ▸ typed
            have inside : ahead ∈ cursor.rest := shape ▸ List.mem_cons_self
            rw [if_neg (plain ahead inside start), if_neg (by rw [start]; exact nofun)]
            split
            · next failed => cases read.symm.trans failed
            · next member final taken =>
                obtain ⟨rfl, rfl⟩ := EStateM.Result.ok.inj (read.symm.trans taken)
                rw [rest]

/-- What the reader takes for the end of a struct. -/
def EndsStruct (token : Token) : Prop := token.value = ";"

/-- A struct that is read is derived by its rule from the tokens taken. -/
theorem isStruct_of_struct {found : Struct} {cursor after : Cursor}
    (plain : NoBraceNames cursor.rest) (run : struct cursor = .ok found after) :
    ∃ taken, IsStruct EndsStruct cursor.package taken found ∧ cursor.Passes taken after := by
  obtain ⟨keyword, defined, first, fromName⟩ := bind_eq_ok_iff.mp run
  obtain ⟨passKeyword, isKeyword⟩ := expect_value_eq_ok_iff.mp first
  obtain ⟨name, named, second, fromCheck⟩ := bind_eq_ok_iff.mp fromName
  obtain ⟨passName, identifier⟩ := expect_kind_eq_ok_iff.mp second
  obtain ⟨_, checked, accepted, fromBrace⟩ := bind_eq_ok_iff.mp fromCheck
  obtain ⟨undotted, rfl⟩ := refuse_eq_ok_iff.mp accepted
  obtain ⟨opening, opened, third, fromMembers⟩ := bind_eq_ok_iff.mp fromBrace
  obtain ⟨passOpening, isOpening⟩ := expect_value_eq_ok_iff.mp third
  have start : cursor.Passes [keyword, name, opening] opened :=
    passKeyword.append (passName.append passOpening)
  obtain ⟨members, filled, fourth, fromClose⟩ := bind_eq_ok_iff.mp fromMembers
  obtain ⟨⟨body, derived, passBody⟩, -⟩ := (members_eq_ok_iff (plain.passes start)).mp fourth
  obtain ⟨closing, closed, fifth, fromEnding⟩ := bind_eq_ok_iff.mp fromClose
  obtain ⟨passClosing, isClosing⟩ := expect_value_eq_ok_iff.mp fifth
  obtain ⟨_, ended, sixth, fromCount⟩ := bind_eq_ok_iff.mp fromEnding
  obtain ⟨_, counted, occupied, fromPackage⟩ := bind_eq_ok_iff.mp fromCount
  obtain ⟨some, rfl⟩ := refuse_eq_ok_iff.mp occupied
  obtain ⟨_, _, asked, made⟩ := bind_eq_ok_iff.mp fromPackage
  obtain ⟨rfl, rfl⟩ := get_eq_ok_iff.mp asked
  obtain ⟨rfl, rfl⟩ := pure_eq_ok_iff.mp made
  have whole : ∃ ending, (ending = [] ∨ ∃ token, EndsStruct token ∧ ending = [token]) ∧
      closed.Passes ending after := by
    rcases optionalSemicolon_eq_ok_iff.mp sixth with ⟨rfl, -⟩ | ⟨token, semicolon, passes⟩
    · exact ⟨[], .inl rfl, Cursor.passes_nil.mpr rfl⟩
    · exact ⟨[token], .inr ⟨token, semicolon, rfl⟩, passes⟩
  obtain ⟨ending, ends, passEnding⟩ := whole
  have passes := start.append (passBody.append (passClosing.append passEnding))
  rw [passes.package]
  rw [start.package] at derived
  refine ⟨_, .mk isKeyword identifier (isQualified_eq_false_iff.mp undotted) isOpening derived ?_
    isClosing ends, passes⟩
  rintro rfl
  cases some

/-- A struct that is derived by its rule is read, where no semicolon is left behind it. -/
theorem struct_of_isStruct {found : Struct} {cursor after : Cursor} {taken : List Token}
    (plain : NoBraceNames cursor.rest) (derived : IsStruct EndsStruct cursor.package taken found)
    (passes : cursor.Passes taken after)
    (follow : ∃ token rest, after.rest = token :: rest ∧ token.value ≠ ";") :
    struct cursor = .ok found after := by
  cases derived with
  | @mk keyword name opening closing body ending members defined named undotted opened filled
      occupied closed ended =>
    obtain ⟨inside, start, passes⟩ :=
      Cursor.passes_append.mp (show cursor.Passes ([keyword, name, opening] ++ _) after from passes)
    obtain ⟨afterKeyword, passKeyword, others⟩ := Cursor.passes_cons.mp start
    obtain ⟨afterName, passName, passOpening⟩ := Cursor.passes_cons.mp others
    obtain ⟨afterBody, passBody, passes⟩ := Cursor.passes_append.mp passes
    obtain ⟨afterClosing, passClosing, passEnding⟩ := Cursor.passes_cons.mp passes
    have ending : optionalSemicolon afterClosing = .ok () after := by
      apply optionalSemicolon_eq_ok_iff.mpr
      rcases ended with rfl | ⟨token, semicolon, rfl⟩
      · obtain rfl := Cursor.passes_nil.mp passEnding
        exact .inl ⟨rfl, follow⟩
      · exact .inr ⟨token, semicolon, passEnding⟩
    have package : after.package = cursor.package :=
      (start.append (passBody.append (passClosing.append passEnding))).package
    refine bind_eq_ok_iff.mpr ⟨keyword, _, expect_value_eq_ok_iff.mpr ⟨passKeyword, defined⟩, ?_⟩
    refine bind_eq_ok_iff.mpr ⟨name, _, expect_kind_eq_ok_iff.mpr ⟨passName, named⟩, ?_⟩
    refine bind_eq_ok_iff.mpr ⟨(), _,
      refuse_eq_ok_iff.mpr ⟨isQualified_eq_false_iff.mpr undotted, rfl⟩, ?_⟩
    refine bind_eq_ok_iff.mpr ⟨opening, _, expect_value_eq_ok_iff.mpr ⟨passOpening, opened⟩, ?_⟩
    refine bind_eq_ok_iff.mpr ⟨members, _, (members_eq_ok_iff (plain.passes start)).mpr
      ⟨⟨body, start.package ▸ filled, passBody⟩, closing, _, passClosing.rest, closed.2⟩, ?_⟩
    refine bind_eq_ok_iff.mpr ⟨closing, _, expect_value_eq_ok_iff.mpr ⟨passClosing, closed⟩, ?_⟩
    refine bind_eq_ok_iff.mpr ⟨(), after, ending, ?_⟩
    refine bind_eq_ok_iff.mpr ⟨(), after, refuse_eq_ok_iff.mpr ⟨by simpa using occupied, rfl⟩, ?_⟩
    refine bind_eq_ok_iff.mpr ⟨after, after, rfl, ?_⟩
    rw [package]
    rfl

/-- A package clause is read where there is no package yet and no struct. -/
theorem packageClause_eq_ok_iff {afterStructs : Bool} {value : Unit} {cursor after : Cursor} :
    packageClause afterStructs cursor = .ok value after ↔
      (cursor.package = "" ∧ afterStructs = false) ∧
        ∃ keyword name stop, keyword.Is .keyword "package" ∧ name.kind = .identifier ∧
          stop.Is .symbol ";" ∧
          Cursor.Passes { cursor with package := name.value } [keyword, name, stop] after := by
  constructor
  · intro run
    obtain ⟨keyword, given, first, fromCheck⟩ := bind_eq_ok_iff.mp run
    obtain ⟨passKeyword, isKeyword⟩ := expect_value_eq_ok_iff.mp first
    obtain ⟨_, _, asked, fromRefusal⟩ := bind_eq_ok_iff.mp fromCheck
    obtain ⟨rfl, rfl⟩ := get_eq_ok_iff.mp asked
    obtain ⟨_, _, accepted, fromName⟩ := bind_eq_ok_iff.mp fromRefusal
    obtain ⟨first, rfl⟩ := refuse_eq_ok_iff.mp accepted
    obtain ⟨name, named, second, fromSet⟩ := bind_eq_ok_iff.mp fromName
    obtain ⟨passName, identifier⟩ := expect_kind_eq_ok_iff.mp second
    obtain ⟨_, _, noted, fromStop⟩ := bind_eq_ok_iff.mp fromSet
    obtain ⟨-, rfl⟩ := EStateM.Result.ok.inj noted
    obtain ⟨stop, stopped, last, made⟩ := bind_eq_ok_iff.mp fromStop
    obtain ⟨passStop, ends⟩ := expect_value_eq_ok_iff.mp last
    obtain ⟨-, rfl⟩ := pure_eq_ok_iff.mp made
    rw [passKeyword.package] at first
    refine ⟨by simpa using first, keyword, name, stop, isKeyword, identifier, ends, ?_⟩
    exact ((passKeyword.append passName).inPackage name.value).append passStop
  · rintro ⟨⟨unset, rfl⟩, keyword, name, stop, isKeyword, identifier, ends, passes⟩
    obtain ⟨between, front, passStop⟩ := Cursor.passes_append.mp
      (show Cursor.Passes _ ([keyword, name] ++ [stop]) after from passes)
    obtain ⟨afterKeyword, passKeyword, passName⟩ :=
      Cursor.passes_cons.mp (front.inPackage cursor.package)
    have allowed : (!afterKeyword.package.isEmpty || false) = false := by
      rw [passKeyword.package, unset]
      rfl
    refine bind_eq_ok_iff.mpr ⟨keyword, _, expect_value_eq_ok_iff.mpr ⟨passKeyword, isKeyword⟩, ?_⟩
    refine bind_eq_ok_iff.mpr ⟨_, _, rfl, ?_⟩
    refine bind_eq_ok_iff.mpr ⟨(), _, refuse_eq_ok_iff.mpr ⟨allowed, rfl⟩, ?_⟩
    refine bind_eq_ok_iff.mpr ⟨name, _, expect_kind_eq_ok_iff.mpr ⟨passName, identifier⟩, ?_⟩
    refine bind_eq_ok_iff.mpr ⟨(), between, ?_, ?_⟩
    · cases between
      cases front.package
      rfl
    · exact bind_eq_ok_iff.mpr ⟨stop, after, expect_value_eq_ok_iff.mpr ⟨passStop, ends⟩, rfl⟩

end Parser

end Wireform
