import Wireform.Proofs.Source.Lexemes
import Wireform.Proofs.Source.Steps

/-! # What the reader accepts

The reader succeeds on exactly the files that the rules derive, and gives their structs
(`Wireform.Parser.definitions_eq_ok_iff`). A struct may be ended by a semicolon, but the step that
takes it looks at the value of the token only, so a semicolon in brackets is taken as well; files
without one are read by the rules as they are meant (`Wireform.Parser.definitions_iff_isFile`).
-/

namespace Wireform.Parser

open Grammar

/-- Once a package or a struct is there, structs follow up to the end. -/
theorem structs_of_definitionsAfter {before found : List Struct} {cursor after : Cursor}
    (plain : NoBraceNames cursor.rest) (settled : before ≠ [] ∨ cursor.package ≠ "")
    (run : definitionsAfter before cursor = .ok found after) :
    ∃ body structs stop rest, Star (IsStruct EndsStruct cursor.package) body structs ∧
      found = before ++ structs ∧ stop.kind = .endOfText ∧ cursor.rest = body ++ stop :: rest := by
  fun_induction definitionsAfter before cursor with
  | case1 => cases run
  | case2 before cursor stop rest ahead kind =>
      obtain ⟨rfl, rfl⟩ := EStateM.Result.ok.inj run
      exact ⟨[], [], stop, rest, .nil, (List.append_nil _).symm, kind, ahead⟩
  | case3 => cases run
  | case4 before cursor _ _ _ _ _ value between clause ih =>
      obtain ⟨⟨unset, fresh⟩, -⟩ := packageClause_eq_ok_iff.mp clause
      rcases settled with occupied | named
      · exact absurd (by simpa using fresh) occupied
      · exact absurd unset named
  | case5 => cases run
  | case6 before cursor _ _ _ _ _ _ first between read ih =>
      obtain ⟨taken, derived, passes⟩ := isStruct_of_struct plain read
      obtain ⟨body, structs, stop, rest, filled, rfl, kind, ahead⟩ :=
        ih (plain.passes passes) (.inl (by simp)) run
      rw [passes.package] at filled
      refine ⟨taken ++ body, first :: structs, stop, rest, .cons derived filled, ?_, kind, ?_⟩
      · rw [List.append_assoc]
        rfl
      · rw [passes.rest, ahead, List.append_assoc]
  | case7 => cases run

private theorem value_ne_semicolon {package : String} {body rest : List Token}
    {structs : List Struct}
    {stop : Token} (filled : Star (IsStruct EndsStruct package) body structs)
    (stopped : stop.Is .endOfText "") :
    ∃ token more, body ++ stop :: rest = token :: more ∧ token.value ≠ ";" := by
  cases filled with
  | nil => exact ⟨stop, rest, rfl, by rw [stopped.2]; decide⟩
  | cons head tail =>
      cases head with
      | mk defined => exact ⟨_, _, rfl, by rw [defined.2]; decide⟩

private theorem definitionsAfter_of_end {before : List Struct} {cursor : Cursor} {stop : Token}
    {rest : List Token} (ahead : cursor.rest = stop :: rest) (kind : stop.kind = .endOfText) :
    definitionsAfter before cursor = .ok before cursor := by
  unfold definitionsAfter
  split
  · next nothing => cases ahead.symm.trans nothing
  · next first others shape =>
      obtain ⟨rfl, rfl⟩ := List.cons.inj (ahead.symm.trans shape)
      rw [if_pos kind]

private theorem definitionsAfter_of_struct {before : List Struct} {cursor between : Cursor}
    {keyword : Token} {rest : List Token} {first : Struct} (ahead : cursor.rest = keyword :: rest)
    (defined : keyword.Is .keyword "struct") (read : struct cursor = .ok first between) :
    definitionsAfter before cursor = definitionsAfter (before ++ [first]) between := by
  rw [definitionsAfter.eq_def]
  split
  · next nothing => cases ahead.symm.trans nothing
  · next token others shape =>
      obtain ⟨rfl, rfl⟩ := List.cons.inj (ahead.symm.trans shape)
      have noClause : ¬(keyword.kind = .keyword ∧ keyword.value = "package") :=
        fun clause => absurd (defined.2.symm.trans clause.2) (by decide)
      rw [if_neg (by rw [defined.1]; decide), if_neg noClause, if_pos ⟨defined.1, defined.2⟩]
      split
      · next failed => cases read.symm.trans failed
      · next found final taken =>
          obtain ⟨rfl, rfl⟩ := EStateM.Result.ok.inj (read.symm.trans taken)
          rfl

private theorem definitionsAfter_of_clause {before : List Struct} {cursor between : Cursor}
    {keyword : Token} {rest : List Token} {value : Unit} (ahead : cursor.rest = keyword :: rest)
    (given : keyword.Is .keyword "package")
    (read : packageClause (!before.isEmpty) cursor = .ok value between) :
    definitionsAfter before cursor = definitionsAfter before between := by
  rw [definitionsAfter.eq_def]
  split
  · next nothing => cases ahead.symm.trans nothing
  · next token others shape =>
      obtain ⟨rfl, rfl⟩ := List.cons.inj (ahead.symm.trans shape)
      rw [if_neg (by rw [given.1]; decide), if_pos ⟨given.1, given.2⟩]
      split
      · next failed => cases read.symm.trans failed
      · next found final taken =>
          obtain ⟨-, rfl⟩ := EStateM.Result.ok.inj (read.symm.trans taken)
          rfl

private theorem definitionsAfter_of_structs {before structs : List Struct} {cursor : Cursor}
    {body rest : List Token} {stop : Token} (plain : NoBraceNames cursor.rest)
    (filled : Star (IsStruct EndsStruct cursor.package) body structs)
    (stopped : stop.Is .endOfText "") (ahead : cursor.rest = body ++ stop :: rest) :
    ∃ after, definitionsAfter before cursor = .ok (before ++ structs) after := by
  generalize package : cursor.package = name at filled
  induction filled generalizing cursor before with
  | nil => exact ⟨cursor, by rw [definitionsAfter_of_end ahead stopped.1, List.append_nil]⟩
  | @cons taken others first structs head tail ih =>
      let between : Cursor :=
        ⟨others ++ stop :: rest, cursor.position + taken.length, cursor.package⟩
      have passes : cursor.Passes taken between := ⟨by rw [ahead, List.append_assoc], rfl, rfl⟩
      have read : struct cursor = .ok first between :=
        struct_of_isStruct plain (package ▸ head) passes (value_ne_semicolon tail stopped)
      obtain ⟨after, run⟩ : ∃ after, definitionsAfter (before ++ [first]) between =
          .ok (before ++ [first] ++ structs) after := ih (plain.passes passes) rfl package
      refine ⟨after, ?_⟩
      cases head with
      | mk defined =>
          rw [definitionsAfter_of_struct passes.rest defined read, run, List.append_assoc]
          rfl

private theorem file_of_definitions {tokens : List Token} {structs : List Struct} {after : Cursor}
    (plain : NoBraceNames tokens)
    (occupied : ∀ token ∈ tokens, token.kind = .identifier → token.value ≠ "")
    (run : definitions { rest := tokens } = .ok structs after) :
    ∃ header package body stop rest, IsHeader header package ∧
      Star (IsStruct EndsStruct package) body structs ∧ stop.kind = .endOfText ∧
      tokens = header ++ (body ++ stop :: rest) := by
  rw [definitions, definitionsAfter.eq_def] at run
  split at run
  · cases run
  · next token others ahead =>
      split at run
      · next kind =>
          obtain ⟨rfl, rfl⟩ := EStateM.Result.ok.inj run
          exact ⟨[], "", [], token, others, .absent, .nil, kind, ahead⟩
      · split at run
        · split at run
          · cases run
          · next value between clause =>
              obtain ⟨-, keyword, name, stop, given, named, stopped, passes⟩ :=
                packageClause_eq_ok_iff.mp clause
              have split : tokens = [keyword, name, stop] ++ between.rest := passes.rest
              have listed : name ∈ tokens := by rw [split]; simp
              have filled : between.package ≠ "" := passes.package ▸ occupied name listed named
              have ahead : NoBraceNames between.rest := fun token later =>
                plain token (split ▸ List.mem_append_right _ later)
              obtain ⟨body, structs, last, rest, derived, rfl, kind, left⟩ :=
                structs_of_definitionsAfter ahead (.inr filled) run
              refine ⟨_, _, body, last, rest, .clause given named stopped, ?_, kind, ?_⟩
              · rwa [passes.package] at derived
              · rw [← left, split]
        · split at run
          · split at run
            · cases run
            · next first between read =>
                obtain ⟨taken, derived, passes⟩ := isStruct_of_struct plain read
                obtain ⟨body, structs, last, rest, others, rfl, kind, left⟩ :=
                  structs_of_definitionsAfter (plain.passes passes) (.inl (by simp)) run
                rw [passes.package] at others
                refine ⟨[], "", taken ++ body, last, rest, .absent, .cons derived others, kind, ?_⟩
                rw [List.append_assoc, ← left]
                exact passes.rest
          · cases run

private theorem definitions_of_file {header body rest : List Token} {package : String}
    {structs : List Struct} {stop : Token}
    (plain : NoBraceNames (header ++ (body ++ stop :: rest))) (headed : IsHeader header package)
    (filled : Star (IsStruct EndsStruct package) body structs) (stopped : stop.Is .endOfText "") :
    ∃ after, definitions { rest := header ++ (body ++ stop :: rest) } = .ok structs after := by
  cases headed with
  | absent => exact definitionsAfter_of_structs plain filled stopped rfl
  | @clause keyword name semicolon given named ended =>
      let between : Cursor := ⟨body ++ stop :: rest, 3, name.value⟩
      have read : packageClause (!([] : List Struct).isEmpty)
          { rest := [keyword, name, semicolon] ++ (body ++ stop :: rest) } = .ok () between :=
        packageClause_eq_ok_iff.mpr ⟨⟨rfl, rfl⟩, keyword, name, semicolon, given, named, ended,
          rfl, rfl, rfl⟩
      obtain ⟨after, run⟩ : ∃ after, definitionsAfter [] between = .ok ([] ++ structs) after :=
        definitionsAfter_of_structs
          (fun token member => plain token (List.mem_append_right _ member)) filled stopped rfl
      exact ⟨after, (definitionsAfter_of_clause rfl given read).trans run⟩

/-! ### Files that were read as tokens -/

section Lexed

variable {text : String} {tokens : List Token}

private theorem noBraceNames_of_tokenize (lexed : Source.tokenize text = .ok tokens) :
    NoBraceNames tokens := by
  intro token member identifier brace
  have spelt := (Source.named_of_mem_tokenizeFrom lexed token member identifier).1
  exact absurd (spelt.parts '\x7d' (by rw [brace]; simp)) (by decide)

private theorem identifier_ne_empty (lexed : Source.tokenize text = .ok tokens) :
    ∀ token ∈ tokens, token.kind = .identifier → token.value ≠ "" := by
  intro token member identifier empty
  have spelt := (Source.named_of_mem_tokenizeFrom lexed token member identifier).1
  obtain ⟨first, rest, spelling, -⟩ := spelt.start
  rw [empty] at spelling
  cases spelling

/-- Only the last token of a text is an end token. -/
theorem end_of_tokenize (lexed : Source.tokenize text = .ok tokens) {front rest : List Token}
    {stop : Token} (split : tokens = front ++ stop :: rest) (kind : stop.kind = .endOfText) :
    rest = [] ∧ stop.Is .endOfText "" := by
  obtain ⟨lexemes, last, rfl, each⟩ := Source.lexemes_of_tokenizeFrom lexed
  rcases List.eq_nil_or_concat rest with rfl | ⟨middle, final, rfl⟩
  · obtain ⟨-, same⟩ := List.append_inj' split rfl
    obtain rfl := (List.cons.inj same).1
    exact ⟨rfl, rfl, rfl⟩
  · rw [List.concat_eq_append, ← List.cons_append, ← List.append_assoc] at split
    obtain ⟨inside, -⟩ := List.append_inj' split rfl
    have lexeme := each stop (by rw [inside]; simp)
    exact absurd kind lexeme.kind_ne_endOfText

/-- **The reader takes the files of its rules.** -/
theorem definitions_eq_ok_iff (lexed : Source.tokenize text = .ok tokens) {structs : List Struct} :
    (∃ after, definitions { rest := tokens } = .ok structs after) ↔
      IsFile EndsStruct tokens structs := by
  have plain := noBraceNames_of_tokenize lexed
  constructor
  · rintro ⟨after, run⟩
    obtain ⟨header, package, body, stop, rest, headed, filled, kind, rfl⟩ :=
      file_of_definitions plain (identifier_ne_empty lexed) run
    obtain ⟨rfl, -⟩ := end_of_tokenize lexed (List.append_assoc ..).symm kind
    exact .mk headed filled kind
  · intro derived
    cases derived with
    | mk headed filled stopped =>
        obtain ⟨-, isEnd⟩ := end_of_tokenize lexed (List.append_assoc ..).symm stopped
        exact definitions_of_file plain headed filled isEnd

private theorem endsStruct_iff (lexed : Source.tokenize text = .ok tokens) {token : Token}
    (listed : token ∈ tokens) :
    EndsStruct token ↔ token.Is .symbol ";" ∨ token.Is .dimension ";" := by
  obtain ⟨lexemes, last, rfl, each⟩ := Source.lexemes_of_tokenizeFrom lexed
  constructor
  · intro semicolon
    rcases List.mem_append.mp listed with inside | stop
    · exact (each token inside).is_of_semicolon semicolon
    · rw [List.mem_singleton.mp stop] at semicolon
      exact absurd (show "" = ";" from semicolon) (by decide)
  · rintro (symbol | bracketed)
    · exact symbol.2
    · exact bracketed.2

/-- **The reader accepts its grammar, and semicolons in brackets.** For a text that was read as
tokens, the reader gives some structs exactly where the rules derive them from the tokens, a struct
being ended by nothing, by a semicolon or by a semicolon in brackets. The rules without the last of
these derive exactly the files in which no semicolon stands in brackets. -/
theorem definitions_iff_isFile (lexed : Source.tokenize text = .ok tokens)
    (structs : List Struct) :
    ((∃ after, definitions { rest := tokens } = .ok structs after) ↔
      IsFile (fun token => token.Is .symbol ";" ∨ token.Is .dimension ";") tokens structs) ∧
    (IsFile (·.Is .symbol ";") tokens structs ↔
      (∃ after, definitions { rest := tokens } = .ok structs after) ∧
        ∀ token ∈ tokens, ¬token.Is .dimension ";") := by
  rw [definitions_eq_ok_iff lexed]
  refine ⟨⟨?_, ?_⟩, ⟨?_, ?_⟩⟩
  · intro derived
    exact derived.imp fun token listed => (endsStruct_iff lexed listed).mp
  · intro derived
    exact derived.imp fun token listed => (endsStruct_iff lexed listed).mpr
  · intro derived
    refine ⟨derived.imp fun token _ symbol => symbol.2, derived.not_bracketed ?_⟩
    exact fun token symbol => not_bracketed_of_kind symbol.1 nofun
  · rintro ⟨derived, unbracketed⟩
    refine derived.imp fun token listed semicolon => ?_
    exact ((endsStruct_iff lexed listed).mp semicolon).resolve_right (unbracketed token listed)

end Lexed

/-- The structs of a text are the definitions in its tokens. -/
theorem structs_eq_ok_iff {text : String} {structs : List Struct} :
    Source.structs text = .ok structs ↔
      ∃ tokens, Source.tokenize text = .ok tokens ∧
        ∃ after, definitions { rest := tokens } = .ok structs after := by
  unfold Source.structs
  cases lexed : Source.tokenize text with
  | error fault => simp
  | ok tokens => cases parsed : definitions { rest := tokens } <;> simp [parsed]

/-- A file with a package, a struct with a semicolon after it and one without. -/
theorem definitions_iff_isFile_pair :
    ∃ tokens structs,
      Source.tokenize
          "package p; struct a \x7b byte n; b x[n]; \x7d; struct b \x7b byte v[2]; \x7d" =
            .ok tokens ∧
      IsFile (·.Is .symbol ";") tokens structs ∧ structs.map (·.name) = ["p.a", "p.b"] := by
  let structs := [
    Struct.withSignatureHash ⟨"p.a", [⟨"n", .primitive .byte, []⟩,
      ⟨"x", .compound "p.b", [.dynamic "n"]⟩], 0⟩,
    Struct.withSignatureHash ⟨"p.b", [⟨"v", .primitive .byte, [.constant "2"]⟩], 0⟩]
  have read : Source.structs
      "package p; struct a \x7b byte n; b x[n]; \x7d; struct b \x7b byte v[2]; \x7d" =
        .ok structs := by decide +kernel
  obtain ⟨tokens, lexed, run⟩ := structs_eq_ok_iff.mp read
  have unbracketed : (Source.tokenize
      "package p; struct a \x7b byte n; b x[n]; \x7d; struct b \x7b byte v[2]; \x7d").map
        (·.all fun token => ¬token.Is .dimension ";") = .ok true := by decide +kernel
  rw [lexed] at unbracketed
  have each : ∀ token ∈ tokens, ¬token.Is .dimension ";" := by
    simpa using Except.ok.inj unbracketed
  exact ⟨tokens, structs, lexed, (definitions_iff_isFile lexed structs).2.mpr ⟨run, each⟩, rfl⟩

/-- A semicolon in brackets is taken for the end of a struct, though no rule derives such a file. -/
theorem definitions_of_bracketed_semicolon :
    ∃ tokens structs after,
      Source.tokenize "struct point \x7b int32_t x; \x7d [;]" = .ok tokens ∧
      definitions { rest := tokens } = .ok structs after ∧
      ∀ found, ¬IsFile (·.Is .symbol ";") tokens found := by
  let point := Struct.withSignatureHash ⟨"point", [⟨"x", .primitive .int32, []⟩], 0⟩
  have read : Source.structs "struct point \x7b int32_t x; \x7d [;]" = .ok [point] := by
    decide +kernel
  obtain ⟨tokens, lexed, after, run⟩ := structs_eq_ok_iff.mp read
  have bracketed : (Source.tokenize "struct point \x7b int32_t x; \x7d [;]").map
      (·.contains ⟨.dimension, ";", 1⟩) = .ok true := by decide +kernel
  rw [lexed] at bracketed
  have listed : (⟨.dimension, ";", 1⟩ : Token) ∈ tokens :=
    List.contains_iff_mem.mp (Except.ok.inj bracketed)
  refine ⟨tokens, [point], after, lexed, run, ?_⟩
  intro found derived
  refine derived.not_bracketed ?_ _ listed ⟨rfl, rfl⟩
  exact fun token symbol => not_bracketed_of_kind symbol.1 nofun

end Wireform.Parser
