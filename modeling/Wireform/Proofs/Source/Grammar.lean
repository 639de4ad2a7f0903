import Wireform.Source.Parser

/-! # The grammar of type definition files

A file is an optional package clause, structs and the end; a struct is a keyword, a name and members
between braces; a member is a type, a name, dimensions and a semicolon. The rules are stated over
tokens, apart from the reader, and each gives what its tokens stand for (`Wireform.Grammar.IsFile`).
Which token may end a struct after its closing brace is a parameter. No other rule admits a
semicolon in brackets (`Wireform.Grammar.IsFile.not_bracketed`).
-/

namespace Wireform.Grammar

/-- A sequence of items, each derived from tokens of its own. -/
inductive Star {α : Type} (item : List Token → α → Prop) : List Token → List α → Prop
  | nil : Star item [] []
  | cons {first rest : List Token} {value : α} {values : List α} (head : item first value)
      (tail : Star item rest values) : Star item (first ++ rest) (value :: values)

/-- The text of a dimension: digits, or the name of a length. -/
inductive IsSize : String → Dimension → Prop
  | constant {text : String} (occupied : text ≠ "")
      (digits : ∀ c ∈ text.toList, Text.isDigit c = true) : IsSize text (.constant text)
  | dynamic {text : String} {first : Char} {rest : List Char}
      (spelling : text.toList = first :: rest) (start : Text.isLetter first = true ∨ first = '_')
      (parts : ∀ c ∈ text.toList, Text.isWordChar c = true ∨ c = '_') : IsSize text (.dynamic text)

inductive IsDimension : List Token → Dimension → Prop
  | mk {token : Token} {dimension : Dimension} (kind : token.kind = .dimension)
      (size : IsSize token.value dimension) : IsDimension [token] dimension

/-- What the name of a type means inside a package. -/
def typeOf (package name : String) : FieldType :=
  match Primitive.ofName? name with
  | some p => .primitive p
  | none => .compound (Parser.qualify package name)

inductive IsMember (package : String) : List Token → Member → Prop
  | mk {type name stop : Token} {sizes : List Token} {dimensions : List Dimension}
      (typed : type.kind = .identifier) (named : name.kind = .identifier)
      (plain : '.' ∉ name.value.toList) (sized : Star IsDimension sizes dimensions)
      (stopped : stop.Is .symbol ";") :
      IsMember package (type :: name :: (sizes ++ [stop]))
        ⟨name.value, typeOf package type.value, dimensions⟩

/-- A struct, up to the token that may follow its closing brace. -/
inductive IsStruct (ends : Token → Prop) (package : String) : List Token → Struct → Prop
  | mk {keyword name opening closing : Token} {body ending : List Token} {members : List Member}
      (defined : keyword.Is .keyword "struct") (named : name.kind = .identifier)
      (plain : '.' ∉ name.value.toList) (opened : opening.Is .symbol "\x7b")
      (filled : Star (IsMember package) body members) (occupied : members ≠ [])
      (closed : closing.Is .symbol "\x7d")
      (ended : ending = [] ∨ ∃ token, ends token ∧ ending = [token]) :
      IsStruct ends package (keyword :: name :: opening :: (body ++ closing :: ending))
        (Struct.withSignatureHash { name := Parser.qualify package name.value, members })

/-- The package clause that a file may start with, and the package that it names. -/
inductive IsHeader : List Token → String → Prop
  | absent : IsHeader [] ""
  | clause {keyword name stop : Token} (given : keyword.Is .keyword "package")
      (named : name.kind = .identifier) (stopped : stop.Is .symbol ";") :
      IsHeader [keyword, name, stop] name.value

inductive IsFile (ends : Token → Prop) : List Token → List Struct → Prop
  | mk {header body : List Token} {package : String} {structs : List Struct} {stop : Token}
      (headed : IsHeader header package) (filled : Star (IsStruct ends package) body structs)
      (stopped : stop.kind = .endOfText) : IsFile ends (header ++ (body ++ [stop])) structs

section Tokens

variable {α : Type} {item other : List Token → α → Prop} {ends more : Token → Prop}
  {package : String} {tokens : List Token}

private theorem Star.imp {values : List α} (derived : Star item tokens values)
    (each : ∀ first value, first ⊆ tokens → item first value → other first value) :
    Star other tokens values := by
  induction derived with
  | nil => exact .nil
  | @cons first rest value values head tail ih =>
      refine .cons (each first value (List.subset_append_left _ _) head) (ih ?_)
      intro later value inside
      exact each later value (List.Subset.trans inside (List.subset_append_right _ _))

private theorem IsStruct.imp {struct : Struct} (derived : IsStruct ends package tokens struct)
    (each : ∀ token ∈ tokens, ends token → more token) : IsStruct more package tokens struct := by
  cases derived with
  | mk defined named plain opened filled occupied closed ended =>
      refine .mk defined named plain opened filled occupied closed (ended.imp_right ?_)
      rintro ⟨token, ending, rfl⟩
      exact ⟨token, each token (by simp) ending, rfl⟩

/-- Files are derived by fewer rules where fewer tokens may end a struct. -/
theorem IsFile.imp {structs : List Struct} (derived : IsFile ends tokens structs)
    (each : ∀ token ∈ tokens, ends token → more token) : IsFile more tokens structs := by
  cases derived with
  | mk headed filled stopped =>
      refine .mk headed (filled.imp ?_) stopped
      intro first struct inside written
      refine written.imp fun token member => each token ?_
      exact List.mem_append_right _ (List.mem_append_left _ (inside member))

private theorem Star.forall_mem {values : List α} {fits : Token → Prop}
    (derived : Star item tokens values)
    (each : ∀ first value, item first value → ∀ token ∈ first, fits token) :
    ∀ token ∈ tokens, fits token := by
  induction derived with
  | nil => simp
  | @cons first rest value values head tail ih =>
      intro token member
      rcases List.mem_append.mp member with earlier | later
      · exact each first value head token earlier
      · exact ih token later

/-- Each value of a sequence is derived from some of its tokens. -/
theorem Star.exists_of_mem {values : List α} (derived : Star item tokens values) :
    ∀ value ∈ values, ∃ first, first ⊆ tokens ∧ item first value := by
  induction derived with
  | nil => simp
  | @cons first rest value values head tail ih =>
      intro other member
      rcases List.mem_cons.mp member with rfl | later
      · exact ⟨first, List.subset_append_left _ _, head⟩
      · obtain ⟨taken, inside, found⟩ := ih other later
        exact ⟨taken, List.Subset.trans inside (List.subset_append_right _ _), found⟩

/-! ### Semicolons in brackets -/

/-- A token of another kind is no semicolon in brackets. -/
theorem not_bracketed_of_kind {token : Token} {kind : TokenKind} (known : token.kind = kind)
    (other : kind ≠ .dimension) : ¬token.Is .dimension ";" :=
  fun bracketed => other (known.symm.trans bracketed.1)

private theorem IsSize.ne_semicolon {text : String} {dimension : Dimension}
    (size : IsSize text dimension) :
    text ≠ ";" := by
  rintro rfl
  cases size with
  | constant occupied digits => exact absurd (digits ';' (by simp)) (by decide)
  | dynamic spelling start parts => exact absurd (parts ';' (by simp)) (by decide)

private theorem IsMember.not_bracketed {member : Member}
    (derived : IsMember package tokens member) :
    ∀ token ∈ tokens, ¬token.Is .dimension ";" := by
  cases derived with
  | @mk type name stop sizes dimensions typed named plain sized stopped =>
      have inside : ∀ token ∈ sizes, ¬token.Is .dimension ";" := by
        refine sized.forall_mem fun first dimension size token member => ?_
        cases size with
        | mk kind size =>
            rw [List.mem_singleton.mp member]
            exact fun bracketed => size.ne_semicolon bracketed.2
      simp only [List.mem_cons, List.mem_append, List.not_mem_nil, or_false]
      rintro token (rfl | rfl | size | rfl)
      · exact not_bracketed_of_kind typed nofun
      · exact not_bracketed_of_kind named nofun
      · exact inside token size
      · exact not_bracketed_of_kind stopped.1 nofun

private theorem IsStruct.not_bracketed {struct : Struct}
    (derived : IsStruct ends package tokens struct)
    (plain : ∀ token, ends token → ¬token.Is .dimension ";") :
    ∀ token ∈ tokens, ¬token.Is .dimension ";" := by
  cases derived with
  | @mk keyword name opening closing body ending members defined named _ opened filled _ closed
      ended =>
    have inside := filled.forall_mem fun _ _ derived => derived.not_bracketed
    simp only [List.mem_cons, List.mem_append]
    rintro token (rfl | rfl | rfl | member | rfl | last)
    · exact not_bracketed_of_kind defined.1 nofun
    · exact not_bracketed_of_kind named nofun
    · exact not_bracketed_of_kind opened.1 nofun
    · exact inside token member
    · exact not_bracketed_of_kind closed.1 nofun
    · rcases ended with rfl | ⟨semicolon, allowed, rfl⟩
      · cases last
      · exact List.mem_singleton.mp last ▸ plain semicolon allowed

/-- A file has no semicolon in brackets, unless one may end a struct. -/
theorem IsFile.not_bracketed {structs : List Struct} (derived : IsFile ends tokens structs)
    (plain : ∀ token, ends token → ¬token.Is .dimension ";") :
    ∀ token ∈ tokens, ¬token.Is .dimension ";" := by
  cases derived with
  | @mk header body package structs stop headed filled stopped =>
      have inside := filled.forall_mem fun _ _ derived => derived.not_bracketed plain
      simp only [List.mem_append, List.mem_singleton]
      rintro token (front | member | rfl)
      · cases headed with
        | absent => cases front
        | clause given named ended =>
            simp only [List.mem_cons, List.not_mem_nil, or_false] at front
            rcases front with rfl | rfl | rfl
            · exact not_bracketed_of_kind given.1 nofun
            · exact not_bracketed_of_kind named nofun
            · exact not_bracketed_of_kind ended.1 nofun
      · exact inside token member
      · exact not_bracketed_of_kind stopped nofun

end Tokens

end Wireform.Grammar
