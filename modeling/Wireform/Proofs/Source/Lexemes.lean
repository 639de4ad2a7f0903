import Wireform.Proofs.Source.Moves

/-! # The shape of tokens

The tokens of a text are lexemes and one end token after them
(`Wireform.Source.lexemes_of_tokenizeFrom`). A lexeme tells by its kind how its value is spelt: a
symbol is one character, a number is made of digits, and a word starts like a name and goes on like
a dotted one.
-/

namespace Wireform.Source

/-- The tokens that a step can find. -/
inductive Lexeme : Token → Prop
  | symbol {line : Nat} {c : Char} (known : isSymbol c = true) :
      Lexeme ⟨.symbol, c.toString, line⟩
  | number {line : Nat} {digits : List Char} (occupied : digits ≠ [])
      (each : ∀ c ∈ digits, Text.isDigit c = true) :
      Lexeme ⟨.number, String.ofList digits, line⟩
  | word {line : Nat} {text : List Char} (spelt : Word text) :
      Lexeme (wordToken line (String.ofList text))
  | dimension {line : Nat} {text : String} : Lexeme ⟨.dimension, text, line⟩

/-- What a move finds is a lexeme. -/
theorem Move.lexeme {line : Nat} {text rest : List Char} {token : Token}
    (move : Move line text (.token token rest)) : Lexeme token := by
  cases move with
  | dimension => exact .dimension
  | symbol known => exact .symbol known
  | number each => exact .number (List.cons_ne_nil _ _) each
  | word spelt => exact .word spelt

/-- **A text is read as lexemes up to its end.** -/
theorem lexemes_of_tokenizeFrom {line : Nat} {text : List Char} {tokens : List Token}
    (run : tokenizeFrom line text = .ok tokens) :
    ∃ lexemes last, tokens = lexemes ++ [⟨.endOfText, "", last⟩] ∧
      ∀ token ∈ lexemes, Lexeme token := by
  induction tokenizeFrom_eq_ok_iff.mp run with
  | @finish line => exact ⟨[], line, rfl, by simp⟩
  | skip move tail ih => exact ih (tokenizeFrom_eq_ok_iff.mpr tail)
  | @token line text rest token tokens move tail ih =>
      obtain ⟨lexemes, last, rfl, each⟩ := ih (tokenizeFrom_eq_ok_iff.mpr tail)
      exact ⟨token :: lexemes, last, rfl, List.forall_mem_cons.mpr ⟨move.lexeme, each⟩⟩

/-- A word that may name something. -/
def Named (name : String) : Prop := Word name.toList ∧ name ∉ keywords

namespace Lexeme

variable {token : Token}

/-- No lexeme is an end token. -/
theorem kind_ne_endOfText (lexeme : Lexeme token) : token.kind ≠ .endOfText := by
  cases lexeme with
  | symbol => exact nofun
  | number => exact nofun
  | word =>
      unfold wordToken
      dsimp only
      split <;> exact nofun
  | dimension => exact nofun

private theorem named_of_identifier (lexeme : Lexeme token)
    (identifier : token.kind = .identifier) :
    Named token.value := by
  cases lexeme with
  | symbol => cases identifier
  | number => cases identifier
  | dimension => cases identifier
  | @word line text spelt =>
      refine ⟨by simpa only [wordToken, String.toList_ofList] using spelt, ?_⟩
      intro keyword
      have listed : keywords.contains (String.ofList text) = true :=
        List.contains_iff_mem.mpr keyword
      rw [wordToken, if_pos listed] at identifier
      cases identifier

/-- A semicolon is a symbol, or all that stands in a pair of brackets. -/
theorem is_of_semicolon (lexeme : Lexeme token) (semicolon : token.value = ";") :
    token.Is .symbol ";" ∨ token.Is .dimension ";" := by
  have spelling : token.value.toList = [';'] := by rw [semicolon]; rfl
  cases lexeme with
  | symbol => exact .inl ⟨rfl, semicolon⟩
  | dimension => exact .inr ⟨rfl, semicolon⟩
  | @number line digits occupied each =>
      rw [String.toList_ofList] at spelling
      have digit := each ';' (by rw [spelling]; exact List.mem_singleton_self _)
      exact absurd digit (by decide)
  | @word line text spelt =>
      rw [wordToken, String.toList_ofList] at spelling
      have part := spelt.parts ';' (by rw [spelling]; exact List.mem_singleton_self _)
      exact absurd part (by decide)

end Lexeme

/-- The identifiers of a text are words that may name something. -/
theorem named_of_mem_tokenizeFrom {line : Nat} {text : List Char} {tokens : List Token}
    (run : tokenizeFrom line text = .ok tokens) :
    ∀ token ∈ tokens, token.kind = .identifier → Named token.value := by
  obtain ⟨lexemes, last, rfl, each⟩ := lexemes_of_tokenizeFrom run
  intro token member identifier
  rcases List.mem_append.mp member with inside | stop
  · exact (each token inside).named_of_identifier identifier
  · rw [List.mem_singleton.mp stop] at identifier
    cases identifier

end Wireform.Source
