import Wireform.Proofs.Source.Acceptance
import Wireform.Proofs.Source.Pieces

/-! # What becomes of a text

A text is read to its end, or it is at fault at one of its lines
(`Wireform.Source.outcome_of_text`). A fault of the lexer is on the line that it has reached. A
fault of the reader is on the line of a token, since the reader takes no end token
(`Wireform.Parser.takes_definitionsAfter`), and the lines of tokens are lines of the text
(`Wireform.Source.Reading.lines`). So no text is at fault without a line
(`Wireform.Source.structs_ne_pastEnd`), nor are several (`Wireform.Schema.ofTexts_ne_pastEnd`).
-/

namespace Wireform

/-- A fault that is worded as a line of the text and a cause. -/
def SourceFault.IsWithin (text : String) (fault : SourceFault) : Prop :=
  ∃ line cause, fault = .atLine line cause ∧ 1 ≤ line ∧ line ≤ 1 + text.toList.count '\n' ∧
    ("Line " ++ toString line ++ ":").toList <+: fault.message.toList

private theorem SourceFault.isWithin_of_line {text : String} {line : Nat} (cause : SourceCause)
    (above : 1 ≤ line) (below : line ≤ 1 + text.toList.count '\n') :
    SourceFault.IsWithin text (.atLine line cause) := by
  refine ⟨line, cause, rfl, above, below, " ".toList ++ cause.message.toList, ?_⟩
  simp [SourceFault.message]

namespace Source

/-- A text fails at one of its lines. -/
theorem line_of_tokenizeFrom {line : Nat} {text : List Char} {fault : SourceFault}
    (failed : tokenizeFrom line text = .error fault) :
    ∃ place cause, fault = .atLine place cause ∧ line ≤ place ∧
      place ≤ line + text.count '\n' := by
  fun_induction tokenizeFrom line text with
  | case1 => cases failed
  | case2 line c rest next after scanned ih =>
      obtain ⟨place, cause, same, above, below⟩ := ih failed
      have move := move_of_skip scanned
      have later := move.le_next
      have lines := move.count_skip
      exact ⟨place, cause, same, by omega, by omega⟩
  | case3 line c rest token after scanned found later ih =>
      obtain rfl := Except.error.inj failed
      rw [(move_of_token scanned).count_token]
      exact ih later
  | case4 => cases failed
  | case5 line c rest found scanned =>
      obtain rfl := Except.error.inj failed
      obtain ⟨cause, same⟩ := line_of_fault scanned
      exact ⟨line, cause, same, Nat.le_refl _, Nat.le_add_right _ _⟩

/-- What the reader finds at fault is one of the tokens. -/
theorem exists_token_of_definitions {text : String} {tokens : List Token} {fault : SourceFault}
    {after : Cursor} (lexed : tokenize text = .ok tokens)
    (failed : Parser.definitions { rest := tokens } = .error fault after) :
    ∃ token ∈ tokens, ∃ cause, fault = .atLine token.line cause := by
  obtain ⟨lexemes, last, shape, -⟩ := lexemes_of_tokenizeFrom lexed
  have among : Parser.Among tokens { rest := tokens } := Parser.among_rest { rest := tokens }
  cases (Parser.takes_definitionsAfter []).of_error among failed with
  | @atToken token listed cause => exact ⟨token, listed, cause, rfl⟩
  | pastEnd endless => exact absurd ⟨rfl, rfl⟩ (endless ⟨.endOfText, "", last⟩ (by simp [shape]))

/-- The definitions of a text are read up to its one end token. -/
theorem end_of_definitions {text : String} {tokens : List Token} {structs : List Struct}
    {after : Cursor} (lexed : tokenize text = .ok tokens)
    (run : Parser.definitions { rest := tokens } = .ok structs after) :
    ∃ stop, stop.Is .endOfText "" ∧ after.rest = [stop] ∧ tokens[after.position]? = some stop ∧
      after.position + 1 = tokens.length := by
  have among : Parser.Among tokens { rest := tokens } := Parser.among_rest { rest := tokens }
  obtain ⟨moved, stop, rest, ahead, kind⟩ := (Parser.takes_definitionsAfter []).of_ok among run
  obtain ⟨taken, shape, -⟩ := moved.among
  rw [ahead] at shape
  obtain ⟨rfl, isEnd⟩ := Parser.end_of_tokenize lexed shape kind
  have place : after.position + 1 = tokens.length := by simpa [ahead] using moved.position
  have last : after.position = taken.length := by simpa [shape] using place
  exact ⟨stop, isEnd, ahead, by simp [shape, last], place⟩

/-- **A text is read to its end, or it is at fault at one of its lines.** There is always an
outcome: the tokens of the text or a fault, and then its definitions or a fault. No reading runs out
of tokens, and one that succeeds stops at the end token, which is the last. -/
theorem outcome_of_text (text : String) :
    (∃ fault, tokenize text = .error fault ∧ fault.IsWithin text) ∨
      ∃ tokens, tokenize text = .ok tokens ∧
        ((∃ fault after, Parser.definitions { rest := tokens } = .error fault after ∧
            fault.IsWithin text) ∨
          ∃ structs after stop, Parser.definitions { rest := tokens } = .ok structs after ∧
            stop.Is .endOfText "" ∧ after.rest = [stop] ∧ tokens[after.position]? = some stop ∧
            after.position + 1 = tokens.length) := by
  cases lexed : tokenize text with
  | error fault =>
      left
      obtain ⟨line, cause, rfl, above, below⟩ := line_of_tokenizeFrom lexed
      exact ⟨_, rfl, SourceFault.isWithin_of_line cause above below⟩
  | ok tokens =>
      refine .inr ⟨tokens, rfl, ?_⟩
      have reading := tokenizeFrom_eq_ok_iff.mp lexed
      cases run : Parser.definitions { rest := tokens } with
      | error fault after =>
          left
          obtain ⟨token, member, cause, rfl⟩ := exists_token_of_definitions lexed run
          obtain ⟨above, below⟩ := reading.lines token member
          exact ⟨_, after, rfl, SourceFault.isWithin_of_line cause above below⟩
      | ok structs after =>
          right
          obtain ⟨stop, found⟩ := end_of_definitions lexed run
          exact ⟨structs, after, stop, rfl, found⟩

/-- **Every fault of a text has a line.** -/
theorem structs_ne_pastEnd (text : String) : structs text ≠ .error .pastEnd := by
  intro failed
  unfold structs at failed
  cases lexed : tokenize text with
  | error fault =>
      rw [lexed] at failed
      obtain ⟨place, cause, same, -⟩ := line_of_tokenizeFrom lexed
      rw [same] at failed
      cases failed
  | ok tokens =>
      rw [lexed] at failed
      dsimp only at failed
      split at failed
      · next fault after run =>
          obtain ⟨token, -, cause, same⟩ := exists_token_of_definitions lexed run
          rw [same] at failed
          cases failed
      · cases failed

end Source

/-- **No fault of several texts is without a line.** -/
theorem Schema.ofTexts_ne_pastEnd (texts : List String) :
    ofTexts texts ≠ .error (.source .pastEnd) := by
  have gathered : ∀ texts, gather texts ≠ .error .pastEnd := by
    intro texts failed
    induction texts with
    | nil => cases failed
    | cons text texts ih =>
        unfold gather at failed
        split at failed
        · next fault unread =>
            obtain rfl := Except.error.inj failed
            exact Source.structs_ne_pastEnd text unread
        · split at failed
          · next fault later =>
              obtain rfl := Except.error.inj failed
              exact ih later
          · cases failed
  intro failed
  unfold ofTexts at failed
  split at failed
  · next fault unread =>
      obtain rfl := ReadFault.source.inj (Except.error.inj failed)
      exact gathered texts unread
  · split at failed <;> cases failed

end Wireform
