import Wireform.Schema.BaseHash
import Wireform.Schema.Validation
import Wireform.Source.Lexer

/-!
# From tokens to structs

A type definition file has at most one package clause, before any struct, and then struct
definitions, each with at least one member. Reading advances a cursor over the tokens; what was
read before a fault stays read, and so does the package. Names without a dot are qualified by the
package, except the names of primitives.

- `Parser` is a reading step, which moves the cursor whether it succeeds or fails
- `Parser.definitions` reads a whole file
- `Schema.ofTexts` reads and validates the schema of several files
-/

namespace Wireform

/-- A place among the tokens of a file, and the package read so far. -/
structure Cursor where
  rest : List Token
  position : Nat := 0
  package : String := ""
  deriving DecidableEq, Repr

/-- A reading step over the tokens of a file. -/
abbrev Parser := EStateM SourceFault Cursor

namespace Parser

/-- The token at the cursor. -/
def peek : Parser Token := fun cursor =>
  match cursor.rest with
  | [] => .error .pastEnd cursor
  | token :: _ => .ok token cursor

/-- Takes the token at the cursor. -/
def advance : Parser Token := fun cursor =>
  match cursor.rest with
  | [] => .error .pastEnd cursor
  | token :: rest => .ok token { cursor with rest := rest, position := cursor.position + 1 }

/-- A fault at a line. -/
def failAt {α : Type} (line : Nat) (cause : SourceCause) : Parser α :=
  throw (.atLine line cause)

/-- What is wrong with a token where one of a kind, and perhaps of a value, is expected. -/
def mismatch (kind : TokenKind) (value : Option String) (token : Token) : Option SourceCause :=
  if token.kind ≠ kind then some (.wrongKind kind value token)
  else match value with
    | none => none
    | some wanted => if token.value ≠ wanted then some (.wrongValue wanted token.value) else none

/-- Takes a token of a kind, and of a value where one is given. -/
def expect (kind : TokenKind) (value : Option String := none) : Parser Token := fun cursor =>
  match advance cursor with
  | .error fault after => .error fault after
  | .ok token after =>
      match mismatch kind value token with
      | some cause => .error (.atLine token.line cause) after
      | none => .ok token after

/-- Whether a name has a package of its own. -/
def isQualified (name : String) : Bool := name.toList.contains '.'

/-- A name inside a package. -/
def qualify (package name : String) : String :=
  if isQualified name || package.isEmpty then name else package ++ "." ++ name

/-- Whether a dimension is a constant. -/
def isConstantSize (text : List Char) : Bool :=
  !text.isEmpty && text.all Text.isDigit

/-- Whether a dimension names a length member. -/
def isLengthName : List Char → Bool
  | [] => false
  | first :: rest => Source.isNameStart first
      && (first :: rest).all fun c => Text.isWordChar c || c == '_'

/-- The dimension that a token stands for. -/
def dimensionOf (token : Token) : Except SourceFault Dimension :=
  if isConstantSize token.value.toList then .ok (.constant token.value)
  else if isLengthName token.value.toList then .ok (.dynamic token.value)
  else .error (.atLine token.line (.invalidDimension token.value))

/-- Takes the dimensions at the cursor. -/
def dimensions (cursor : Cursor) : EStateM.Result SourceFault Cursor (List Dimension) :=
  match _hrest : cursor.rest with
  | [] => .error .pastEnd cursor
  | token :: rest =>
      if token.kind = .dimension then
        let next := { cursor with rest := rest, position := cursor.position + 1 }
        match dimensionOf token with
        | .error fault => .error fault next
        | .ok dimension =>
            match dimensions next with
            | .error fault after => .error fault after
            | .ok others after => .ok (dimension :: others) after
      else .ok [] cursor
termination_by cursor.rest.length
decreasing_by simp [_hrest]

/-- Takes the type name of a member, qualified unless it is a primitive's. -/
def fieldType : Parser FieldType := do
  let token ← expect .identifier
  match Primitive.ofName? token.value with
  | some p => return .primitive p
  | none => return .compound (qualify (← get).package token.value)

/-- A fault at a line, where a condition holds. -/
def refuse (condition : Bool) (line : Nat) (cause : SourceCause) : Parser Unit :=
  if condition then failAt line cause else pure ()

/-- Takes one member. -/
def member : Parser Member := do
  let type ← fieldType
  let name ← expect .identifier
  refuse (isQualified name.value) name.line (.qualifiedMember name.value)
  let dimensions ← dimensions
  let _ ← expect .symbol (some ";")
  return { name := name.value, type, dimensions }

/-- Takes a semicolon, where there is one. -/
def optionalSemicolon : Parser Unit := fun cursor =>
  match cursor.rest with
  | [] => .error .pastEnd cursor
  | token :: rest =>
      if token.value = ";" then
        .ok () { cursor with rest := rest, position := cursor.position + 1 }
      else .ok () cursor

/-! ### What steps take, and where they fail

Every step has one specification (`Takes`), for where it succeeds and for where it fails. That loops
end, that no text is at fault without a line and that a file is read up to its end all follow from
the specifications.
-/

/-- A cursor among some tokens: those before it have been taken, and no end is one of them. -/
def Among (tokens : List Token) (cursor : Cursor) : Prop :=
  ∃ taken, tokens = taken ++ cursor.rest ∧ ∀ token ∈ taken, ¬token.Is .endOfText ""

/-- A fault of some tokens: one of them is at fault, or they stop without an end. -/
inductive FaultAmong (tokens : List Token) : SourceFault → Prop
  | atToken {token : Token} (listed : token ∈ tokens) (cause : SourceCause) :
      FaultAmong tokens (.atLine token.line cause)
  | pastEnd (endless : ∀ token ∈ tokens, ¬token.Is .endOfText "") : FaultAmong tokens .pastEnd

/-- A cursor that has moved forwards, by at least so many tokens. -/
structure Moved (tokens : List Token) (least : Nat) (cursor after : Cursor) : Prop where
  among : Among tokens after
  length : after.rest.length + least ≤ cursor.rest.length
  position : after.position + after.rest.length = cursor.position + cursor.rest.length

/-- What may come of a step: it has taken at least so many tokens and gives a result of a kind, or
it fails with a fault of the tokens. -/
inductive Yields {α : Type} (tokens : List Token) (least : Nat) (cursor : Cursor)
    (result : α → Cursor → Prop) : EStateM.Result SourceFault Cursor α → Prop
  | ok {value : α} {after : Cursor} (moved : Moved tokens least cursor after)
      (fits : result value after) : Yields tokens least cursor result (.ok value after)
  | error {fault : SourceFault} {after : Cursor} (among : FaultAmong tokens fault) :
      Yields tokens least cursor result (.error fault after)

/-- A step that yields so at any cursor among the tokens. -/
def Takes {α : Type} (tokens : List Token) (least : Nat) (step : Parser α)
    (result : α → Cursor → Prop) : Prop :=
  ∀ ⦃cursor : Cursor⦄, Among tokens cursor → Yields tokens least cursor result (step cursor)

section Takes

variable {α β : Type} {tokens : List Token} {least : Nat} {cursor between after : Cursor}

/-- A cursor is among the tokens ahead of it. -/
theorem among_rest (cursor : Cursor) : Among cursor.rest cursor := ⟨[], rfl, by simp⟩

private theorem Among.mem (among : Among tokens cursor) {token : Token} {rest : List Token}
    (ahead : cursor.rest = token :: rest) : token ∈ tokens := by
  obtain ⟨taken, rfl, -⟩ := among
  rw [ahead]
  exact List.mem_append_right _ List.mem_cons_self

private theorem Among.pastEnd (among : Among tokens cursor) (nothing : cursor.rest = []) :
    FaultAmong tokens .pastEnd := by
  obtain ⟨taken, rfl, ordinary⟩ := among
  rw [nothing, List.append_nil]
  exact .pastEnd ordinary

private theorem Among.stay (among : Among tokens cursor) : Moved tokens 0 cursor cursor :=
  ⟨among, Nat.le_refl _, rfl⟩

/-- Any token but an end can be taken. -/
theorem Among.step (among : Among tokens cursor) {token : Token} {rest : List Token}
    (ahead : cursor.rest = token :: rest) (ordinary : ¬token.Is .endOfText "") :
    Moved tokens 1 cursor { cursor with rest := rest, position := cursor.position + 1 } := by
  obtain ⟨taken, rfl, before⟩ := among
  refine ⟨⟨taken ++ [token], ?_, ?_⟩, ?_, ?_⟩
  · rw [ahead, List.append_assoc, List.singleton_append]
  · intro earlier member
    rcases List.mem_append.mp member with inside | last
    · exact before earlier inside
    · exact List.mem_singleton.mp last ▸ ordinary
  · simp [ahead]
  · simp only [ahead, List.length_cons]
    omega

private theorem Moved.trans {further : Nat} (left : Moved tokens least cursor between)
    (right : Moved tokens further between after) : Moved tokens least cursor after := by
  refine ⟨right.among, ?_, right.position.trans left.position⟩
  have first := left.length
  have second := right.length
  omega

/-- A step in two parts succeeds when its parts do. -/
theorem bind_eq_ok_iff {first : Parser α} {second : α → Parser β} {result : β} :
    (first >>= second) cursor = .ok result after ↔
      ∃ value between,
        first cursor = .ok value between ∧ second value between = .ok result after := by
  change EStateM.bind first second cursor = _ ↔ _
  unfold EStateM.bind
  constructor
  · intro h
    split at h
    · next value between hfirst => exact ⟨value, between, hfirst, h⟩
    · simp at h
  · rintro ⟨value, between, hfirst, hsecond⟩
    rw [hfirst]
    exact hsecond

variable {step : Parser α} {second : α → Parser β} {middle : α → Cursor → Prop}
  {result : β → Cursor → Prop}

private theorem Yields.of_moved {further : Nat} {outcome : EStateM.Result SourceFault Cursor α}
    (yields : Yields tokens further between middle outcome)
    (moved : Moved tokens least cursor between) : Yields tokens least cursor middle outcome := by
  cases yields with
  | ok later fits => exact .ok (moved.trans later) fits
  | error among => exact .error among

private theorem Takes.bind (first : Takes tokens least step middle)
    (next : ∀ value between, middle value between → Takes tokens 0 (second value) result) :
    Takes tokens least (step >>= second) result := by
  intro cursor among
  have begun := first among
  change Yields _ _ _ _ (EStateM.bind step second cursor)
  unfold EStateM.bind
  cases run : step cursor with
  | error fault after =>
      rw [run] at begun
      cases begun with
      | error fault => exact .error fault
  | ok value between =>
      rw [run] at begun
      cases begun with
      | ok moved fits => exact (next value between fits moved.among).of_moved moved

/-- A step that takes a token can be counted as taking any number of them. -/
theorem Takes.any (takes : Takes tokens least step middle) : Takes tokens 0 step middle :=
  fun _ among => (takes among).of_moved among.stay

/-- What is known of a step that succeeds. -/
theorem Takes.of_ok (takes : Takes tokens least step middle) (among : Among tokens cursor)
    {value : α} (run : step cursor = .ok value after) :
    Moved tokens least cursor after ∧ middle value after := by
  have yields := takes among
  rw [run] at yields
  cases yields with
  | ok moved fits => exact ⟨moved, fits⟩

/-- What is known of a step that fails. -/
theorem Takes.of_error (takes : Takes tokens least step middle) (among : Among tokens cursor)
    {fault : SourceFault} (run : step cursor = .error fault after) : FaultAmong tokens fault := by
  have yields := takes among
  rw [run] at yields
  cases yields with
  | error among => exact among

/-- Where a step takes a token, fewer tokens are left. -/
theorem Takes.length_lt (takes : Takes cursor.rest 1 step middle) {value : α}
    (run : step cursor = .ok value after) : after.rest.length < cursor.rest.length :=
  (takes.of_ok (among_rest cursor) run).1.length

private theorem takes_pure (value : α) : Takes tokens 0 (pure value : Parser α) fun _ _ => True :=
  fun _ among => .ok among.stay trivial

private theorem takes_get : Takes tokens 0 (get : Parser Cursor) fun _ _ => True :=
  fun _ among => .ok among.stay trivial

private theorem takes_refuse (condition : Bool) {token : Token} (listed : token ∈ tokens)
    (cause : SourceCause) :
    Takes tokens 0 (refuse condition token.line cause) fun _ _ => True := by
  unfold refuse
  split
  · exact fun _ _ => .error (.atToken listed cause)
  · exact takes_pure ()

private theorem takes_expect {kind : TokenKind} (ordinary : kind ≠ .endOfText)
    (value : Option String) :
    Takes tokens 1 (expect kind value) fun token _ => token ∈ tokens := by
  intro cursor among
  unfold expect advance
  cases ahead : cursor.rest with
  | nil => exact .error (among.pastEnd ahead)
  | cons token rest =>
      dsimp only
      cases fault : mismatch kind value token with
      | some cause => exact .error (.atToken (among.mem ahead) cause)
      | none =>
          have expected : token.kind = kind := by
            by_cases same : token.kind = kind
            · exact same
            · simp [mismatch, same] at fault
          have taken := among.step ahead fun isEnd => ordinary (expected.symm.trans isEnd.1)
          exact .ok taken (among.mem ahead)

private theorem faultAmong_of_dimensionOf {token : Token} (listed : token ∈ tokens)
    {fault : SourceFault}
    (unread : dimensionOf token = .error fault) : FaultAmong tokens fault := by
  unfold dimensionOf at unread
  split at unread
  · cases unread
  · split at unread
    · cases unread
    · obtain rfl := Except.error.inj unread
      exact .atToken listed _

private theorem takes_dimensions : Takes tokens 0 dimensions fun _ _ => True := by
  intro cursor among
  fun_induction dimensions cursor with
  | case1 cursor nothing => exact .error (among.pastEnd nothing)
  | case2 cursor token rest ahead kind next fault unread =>
      exact .error (faultAmong_of_dimensionOf (among.mem ahead) unread)
  | case3 cursor token rest ahead kind next dimension read fault after failed ih =>
      have taken := among.step ahead fun isEnd => nomatch kind.symm.trans isEnd.1
      have later := ih taken.among
      rw [failed] at later
      cases later with
      | error fault => exact .error fault
  | case4 cursor token rest ahead kind next dimension read others after tail ih =>
      have taken := among.step ahead fun isEnd => nomatch kind.symm.trans isEnd.1
      have later := ih taken.among
      rw [tail] at later
      cases later with
      | ok moved => exact .ok (among.stay.trans (taken.trans moved)) trivial
  | case5 => exact .ok among.stay trivial

private theorem takes_fieldType : Takes tokens 1 fieldType fun _ _ => True := by
  refine (takes_expect (by decide) none).bind fun token _ _ => ?_
  split
  · exact takes_pure _
  · exact takes_get.bind fun _ _ _ => takes_pure _

private theorem takes_member : Takes tokens 1 member fun _ _ => True := by
  refine takes_fieldType.bind fun type _ _ => ?_
  refine (takes_expect (by decide) none).any.bind fun name _ listed => ?_
  refine (takes_refuse _ listed _).bind fun _ _ _ => takes_dimensions.bind fun _ _ _ => ?_
  exact (takes_expect (by decide) _).any.bind fun _ _ _ => takes_pure _

private theorem takes_optionalSemicolon : Takes tokens 0 optionalSemicolon fun _ _ => True := by
  intro cursor among
  unfold optionalSemicolon
  cases ahead : cursor.rest with
  | nil => exact .error (among.pastEnd ahead)
  | cons token rest =>
      dsimp only
      split
      · next semicolon =>
          have taken := among.step ahead fun isEnd =>
            absurd (semicolon.symm.trans isEnd.2) (by decide)
          exact .ok (among.stay.trans taken) trivial
      · exact .ok among.stay trivial

end Takes

/-! ### Structs and files -/

/-- Takes the members of a struct, up to its closing brace. -/
def members (struct : String) (cursor : Cursor) :
    EStateM.Result SourceFault Cursor (List Member) :=
  match cursor.rest with
  | [] => .error .pastEnd cursor
  | token :: _ =>
      if token.value = "\x7d" then .ok [] cursor
      else if token.kind = .endOfText then
        .error (.atLine token.line (.unterminatedStruct struct)) cursor
      else
        match _hmember : member cursor with
        | .error fault after => .error fault after
        | .ok first after =>
            match members struct after with
            | .error fault final => .error fault final
            | .ok others final => .ok (first :: others) final
termination_by cursor.rest.length
decreasing_by exact takes_member.length_lt _hmember

private theorem takes_members {tokens : List Token} (struct : String) :
    Takes tokens 0 (members struct) fun _ _ => True := by
  intro cursor among
  fun_induction members struct cursor with
  | case1 cursor nothing => exact .error (among.pastEnd nothing)
  | case2 => exact .ok among.stay trivial
  | case3 cursor token rest ahead => exact .error (.atToken (among.mem ahead) _)
  | case4 cursor _ _ _ _ _ fault after failed => exact .error (takes_member.of_error among failed)
  | case5 cursor _ _ _ _ _ first between read fault final failed ih =>
      have later := ih (takes_member.of_ok among read).1.among
      rw [failed] at later
      cases later with
      | error fault => exact .error fault
  | case6 cursor _ _ _ _ _ first between read others final tail ih =>
      have taken := (takes_member.of_ok among read).1
      have later := ih taken.among
      rw [tail] at later
      cases later with
      | ok moved => exact .ok (among.stay.trans (taken.trans moved)) trivial

/-- Takes one struct definition. The semicolon after it may be left out. -/
def struct : Parser Struct := do
  let _ ← expect .keyword (some "struct")
  let name ← expect .identifier
  refuse (isQualified name.value) name.line (.qualifiedStruct name.value)
  let _ ← expect .symbol (some "\x7b")
  let members ← members name.value
  let _ ← expect .symbol (some "\x7d")
  optionalSemicolon
  refuse members.isEmpty name.line (.emptyStruct name.value)
  let cursor ← get
  return Struct.withSignatureHash { name := qualify cursor.package name.value, members }

private theorem takes_struct {tokens : List Token} : Takes tokens 1 struct fun _ _ => True := by
  refine (takes_expect (by decide) _).bind fun _ _ _ => ?_
  refine (takes_expect (by decide) none).any.bind fun name _ listed => ?_
  refine (takes_refuse _ listed _).bind fun _ _ _ => ?_
  refine (takes_expect (by decide) _).any.bind fun _ _ _ => (takes_members _).bind fun _ _ _ => ?_
  refine (takes_expect (by decide) _).any.bind fun _ _ _ => ?_
  refine takes_optionalSemicolon.bind fun _ _ _ => ?_
  refine (takes_refuse _ listed _).bind fun _ _ _ => takes_get.bind fun _ _ _ => ?_
  exact takes_pure _

/-- Notes the package of the file. -/
def setPackage (package : String) : Parser Unit := fun cursor =>
  .ok () { cursor with package }

/-- Takes a package clause, which no struct may precede. -/
def packageClause (afterStructs : Bool) : Parser Unit := do
  let clause ← expect .keyword (some "package")
  let cursor ← get
  refuse (!cursor.package.isEmpty || afterStructs) clause.line .misplacedPackage
  let name ← expect .identifier
  setPackage name.value
  let _ ← expect .symbol (some ";")

private theorem takes_setPackage {tokens : List Token} (package : String) :
    Takes tokens 0 (setPackage package) fun _ _ => True := by
  intro cursor among
  exact .ok ⟨among, Nat.le_refl _, rfl⟩ trivial

private theorem takes_packageClause {tokens : List Token} (afterStructs : Bool) :
    Takes tokens 1 (packageClause afterStructs) fun _ _ => True := by
  refine (takes_expect (by decide) _).bind fun clause _ listed => takes_get.bind fun _ _ _ => ?_
  refine (takes_refuse _ listed _).bind fun _ _ _ => ?_
  refine (takes_expect (by decide) none).any.bind fun name _ _ => ?_
  refine (takes_setPackage _).bind fun _ _ _ => ?_
  exact (takes_expect (by decide) _).any.bind fun _ _ _ => takes_pure _

/-- Takes the definitions up to the end of the file, `before` being the structs taken already. -/
def definitionsAfter (before : List Struct) (cursor : Cursor) :
    EStateM.Result SourceFault Cursor (List Struct) :=
  match cursor.rest with
  | [] => .error .pastEnd cursor
  | token :: _ =>
      if token.kind = .endOfText then .ok before cursor
      else if token.kind = .keyword ∧ token.value = "package" then
        match _hclause : packageClause (!before.isEmpty) cursor with
        | .error fault after => .error fault after
        | .ok _ after => definitionsAfter before after
      else if token.kind = .keyword ∧ token.value = "struct" then
        match _hstruct : struct cursor with
        | .error fault after => .error fault after
        | .ok first after => definitionsAfter (before ++ [first]) after
      else .error (.atLine token.line (.notADefinition token.value)) cursor
termination_by cursor.rest.length
decreasing_by
  · exact (takes_packageClause _).length_lt _hclause
  · exact takes_struct.length_lt _hstruct

/-- The definitions are taken up to an end, or there is a fault of the tokens. -/
theorem takes_definitionsAfter {tokens : List Token} (before : List Struct) :
    Takes tokens 0 (definitionsAfter before)
      fun _ after => ∃ stop rest, after.rest = stop :: rest ∧ stop.kind = .endOfText := by
  intro cursor among
  fun_induction definitionsAfter before cursor with
  | case1 before cursor nothing => exact .error (among.pastEnd nothing)
  | case2 before cursor stop rest ahead kind => exact .ok among.stay ⟨stop, rest, ahead, kind⟩
  | case3 before cursor _ _ _ _ _ fault after failed =>
      exact .error ((takes_packageClause _).of_error among failed)
  | case4 before cursor _ _ _ _ _ value between clause ih =>
      have taken := ((takes_packageClause _).of_ok among clause).1
      exact (ih taken.among).of_moved (among.stay.trans taken)
  | case5 before cursor _ _ _ _ _ _ fault after failed =>
      exact .error (takes_struct.of_error among failed)
  | case6 before cursor _ _ _ _ _ _ first between read ih =>
      have taken := (takes_struct.of_ok among read).1
      exact (ih taken.among).of_moved (among.stay.trans taken)
  | case7 before cursor token rest ahead => exact .error (.atToken (among.mem ahead) _)

/-- Takes the definitions of a file up to its end, which stays at the cursor. -/
def definitions : Parser (List Struct) := definitionsAfter []

end Parser

/-- The structs of a type definition file. -/
def Source.structs (text : String) : Except SourceFault (List Struct) :=
  match tokenize text with
  | .error fault => .error fault
  | .ok tokens =>
      match Parser.definitions { rest := tokens } with
      | .error fault _ => .error fault
      | .ok structs _ => .ok structs

/-- Why no schema is read from some files. -/
inductive ReadFault where
  | source (fault : SourceFault)
  | schema (fault : SchemaFault)
  deriving DecidableEq, Repr

/-- The wording of a fault. -/
def ReadFault.message : ReadFault → String
  | .source fault => fault.message
  | .schema fault => fault.message

namespace Schema

/-- The schema of several files, without validation. -/
def gather : List String → Except SourceFault Schema
  | [] => .ok {}
  | text :: rest =>
      match Source.structs text with
      | .error fault => .error fault
      | .ok structs =>
          match gather rest with
          | .error fault => .error fault
          | .ok others => .ok ⟨structs ++ others.structs⟩

/-- The valid schema of several files. -/
def ofTexts (texts : List String) : Except ReadFault Schema :=
  match gather texts with
  | .error fault => .error (.source fault)
  | .ok schema =>
      match schema.validate with
      | .error fault => .error (.schema fault)
      | .ok () => .ok schema

end Schema

end Wireform
