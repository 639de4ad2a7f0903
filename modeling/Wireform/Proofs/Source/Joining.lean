import Wireform.Proofs.Source.Pieces
import Wireform.Proofs.Source.Scanning

/-! # Texts that are joined

No move looks past the end of its line, except to the mark that closes what it has opened. So the
moves through a text are the same with a line break and any text behind it
(`Wireform.Source.Move.before`), the text scans as its tokens up to the line break
(`Wireform.Source.Reading.scans_break`), and a filler scans as nothing
(`Wireform.Source.Filler.scans`). Texts joined by a line break and a filler are therefore read one
after the other, the second one on lower lines (`Wireform.Source.tokenize_join`), and the layout
between them does not matter.
-/

namespace Wireform

/-- The token, some lines further down. -/
def Token.lowered (lines : Nat) (token : Token) : Token :=
  { token with line := token.line + lines }

/-- What a token is, wherever it stands. -/
def Token.content (token : Token) : TokenKind × String := (token.kind, token.value)

namespace Source

/-- A line break and a filler. -/
def Separator (text : List Char) : Prop := ∃ rest, text = '\n' :: rest ∧ Filler rest

/-- The step with some more text behind what it leaves. -/
def Scan.before (more : List Char) : Scan → Scan
  | skip line rest => skip line (rest ++ more)
  | token found rest => token found (rest ++ more)
  | fault found => fault found

/-- The step, some lines further down. -/
def Scan.lowered (lines : Nat) : Scan → Scan
  | skip line rest => skip (line + lines) rest
  | token found rest => token (found.lowered lines) rest
  | fault found => fault found

variable {line next : Nat} {text rest : List Char} {tokens : List Token}

/-! ### Moves before a line break -/

/-- **A move does not see what stands behind a line break.** -/
theorem Move.before {found : Scan} (move : Move line text found) (more : List Char) :
    Move line (text ++ '\n' :: more) (found.before ('\n' :: more)) := by
  have stops {inside : Char → Bool} (outside : inside '\n' = false) :
      Text.Ends inside ('\n' :: more) := Text.ends_cons.mpr outside
  cases move with
  | lineBreak => exact .lineBreak
  | blank blank => exact .blank blank
  | lineComment unbroken ends =>
      simpa [Scan.before] using Move.lineComment unbroken (ends.append (stops rfl))
  | @blockComment body rest unclosed =>
      have same : Move line _ (.skip _ (rest ++ '\n' :: more)) := .blockComment unclosed
      simpa [Scan.before] using same
  | @dimension raw rest unclosed unbroken =>
      have same : Move line _ (.token _ (rest ++ '\n' :: more)) := .dimension unclosed unbroken
      simpa [Scan.before] using same
  | symbol known => exact .symbol known
  | number each ends =>
      simpa [Scan.before] using Move.number each (ends.append (stops (by decide)))
  | word spelt ends =>
      simpa [Scan.before] using Move.word spelt (ends.append (stops (by decide)))

private theorem Move.lowered {found : Scan} (move : Move line text found) (lines : Nat) :
    Move (line + lines) text (found.lowered lines) := by
  cases move with
  | lineBreak =>
      rw [Scan.lowered, Nat.add_right_comm]
      exact .lineBreak
  | blank blank => exact .blank blank
  | lineComment unbroken ends => exact .lineComment unbroken ends
  | blockComment unclosed =>
      rw [Scan.lowered, Nat.add_right_comm]
      exact .blockComment unclosed
  | dimension unclosed unbroken => exact .dimension unclosed unbroken
  | symbol known => exact .symbol known
  | number each ends => exact .number each ends
  | word spelt ends => exact .word spelt ends

/-! ### Readings -/

/-- A text is read in the same way on lower lines. -/
theorem Reading.lowered (reading : Reading line text tokens) (lines : Nat) :
    Reading (line + lines) text (tokens.map (Token.lowered lines)) := by
  induction reading with
  | finish => exact .finish
  | skip move tail ih => exact .skip (move.lowered lines) ih
  | token move tail ih => exact .token (move.lowered lines) ih

section BeforeBreak

variable {last : Nat} {lexemes : List Token}

private theorem Move.scans_skip (move : Move line text (.skip next rest))
    (scanned : Scans next (rest ++ ['\n']) lexemes last) :
    Scans line (text ++ ['\n']) lexemes last := by
  intro more
  obtain ⟨c, others, rfl⟩ := move.exists_cons
  have step : scan line c (others ++ '\n' :: more) = .skip next (rest ++ '\n' :: more) :=
    scan_of_move (move.before more)
  have left := scanned more
  rw [List.append_assoc, List.singleton_append] at left ⊢
  rw [List.cons_append, tokenizeFrom_of_skip step, left]

private theorem Move.scans_token {token : Token} (move : Move line text (.token token rest))
    (scanned : Scans line (rest ++ ['\n']) lexemes last) :
    Scans line (text ++ ['\n']) (token :: lexemes) last := by
  intro more
  obtain ⟨c, others, rfl⟩ := move.exists_cons
  have step : scan line c (others ++ '\n' :: more) = .token token (rest ++ '\n' :: more) :=
    scan_of_move (move.before more)
  have left := scanned more
  rw [List.append_assoc, List.singleton_append] at left ⊢
  rw [List.cons_append, tokenizeFrom_of_token step, left]
  cases tokenizeFrom last more <;> rfl

/-- **A text that is read scans as its tokens before a line break.** -/
theorem Reading.scans_break (reading : Reading line text tokens) :
    ∃ lexemes, tokens = lexemes ++ [⟨.endOfText, "", line + text.count '\n'⟩] ∧
      (∀ token ∈ lexemes, Lexeme token) ∧
      Scans line (text ++ ['\n']) lexemes (line + text.count '\n' + 1) := by
  induction reading with
  | finish => exact ⟨[], rfl, nofun, Source.scans_break⟩
  | skip move tail ih =>
      obtain ⟨lexemes, rfl, each, scanned⟩ := ih
      rw [move.count_skip]
      exact ⟨lexemes, rfl, each, move.scans_skip scanned⟩
  | token move tail ih =>
      obtain ⟨lexemes, rfl, each, scanned⟩ := ih
      rw [move.count_token]
      exact ⟨_ :: lexemes, rfl, List.forall_mem_cons.mpr ⟨move.lexeme, each⟩,
        move.scans_token scanned⟩

/-- A filler scans as nothing. -/
theorem Filler.scans (filler : Filler text) : Scans line text [] (line + text.count '\n') := by
  induction filler generalizing line with
  | nil => exact .nil
  | @blank c rest blank tail ih =>
      by_cases ends : c = '\n'
      · subst ends
        have whole := Source.scans_break.append (@ih (line + 1))
        simpa [Nat.add_right_comm, Nat.add_assoc] using whole
      · have other : c = ' ' ∨ c = '\t' ∨ c = '\r' := by simpa [ends] using blank
        have single : Scans line [c] [] line := .skip fun _ => .blank other
        simpa [ends] using single.append (@ih line)
  | @lineComment body rest unbroken tail ih =>
      have comment : Move line ('/' :: '/' :: (body ++ [])) (.skip line []) :=
        .lineComment unbroken Text.ends_nil
      rw [List.append_nil] at comment
      have whole := (comment.scans_skip Source.scans_break).append (@ih (line + 1))
      have flat : body.count '\n' = 0 := List.count_eq_zero.mpr unbroken
      simpa [flat, Nat.add_right_comm, Nat.add_assoc] using whole
  | @blockComment body rest unclosed tail ih =>
      have single : Scans line ('/' :: '*' :: (body ++ ['*', '/'])) []
          (line + body.count '\n') := by
        refine .skip fun rest => ?_
        have move : Move line _ (.skip _ rest) := .blockComment unclosed
        simpa using move
      have whole := single.append (@ih (line + body.count '\n'))
      simpa [Nat.add_assoc] using whole

end BeforeBreak

/-- A separator scans as nothing, with its line break in front of it. -/
theorem Separator.scans (apart : Separator text) (line : Nat) :
    ∃ rest, text = '\n' :: rest ∧ Scans (line + 1) rest [] (line + text.count '\n') := by
  obtain ⟨rest, rfl, filler⟩ := apart
  refine ⟨rest, rfl, ?_⟩
  have scanned : Scans (line + 1) rest [] (line + 1 + rest.count '\n') := filler.scans
  rwa [List.count_cons_self, Nat.add_comm (rest.count '\n') 1, ← Nat.add_assoc]

/-- Texts joined by a separator are read one after the other. -/
theorem Reading.join {first second separator : List Char} {left right : List Token}
    (leftRead : Reading line first left) (rightRead : Reading line second right)
    (apart : Separator separator) :
    Reading line (first ++ separator ++ second)
      (left.filter (·.kind != .endOfText) ++
        right.map (Token.lowered ((first ++ separator).count '\n'))) := by
  obtain ⟨lexemes, rfl, each, scannedFirst⟩ := leftRead.scans_break
  obtain ⟨rest, rfl, scannedRest⟩ := apart.scans (line + first.count '\n')
  have kept : ∀ token ∈ lexemes, (token.kind != .endOfText) = true :=
    fun token member => bne_iff_ne.mpr (each token member).kind_ne_endOfText
  have plain (stop : Nat) : (lexemes ++ [(⟨.endOfText, "", stop⟩ : Token)]).filter
      (·.kind != .endOfText) = lexemes := by
    rw [List.filter_append, List.filter_eq_self.mpr kept]
    exact List.append_nil lexemes
  have whole := scannedFirst.append scannedRest second
  have below := tokenizeFrom_eq_ok_iff.mpr
    (rightRead.lowered ((first ++ '\n' :: rest).count '\n'))
  rw [List.count_append, ← Nat.add_assoc] at below
  rw [below, List.append_nil, List.append_assoc first, List.singleton_append] at whole
  rw [plain, List.count_append]
  exact tokenizeFrom_eq_ok_iff.mp whole

private theorem map_content_lowered (lines : Nat) (tokens : List Token) :
    (tokens.map (Token.lowered lines)).map Token.content = tokens.map Token.content := by
  rw [List.map_map]
  rfl

/-- **Tokens of joined texts.** Texts with a separator between them have the tokens of the first
without its end token and then those of the second, on the lines that follow. What the tokens are
does not depend on the separator. -/
theorem tokenize_join {first second separator : String} {left right : List Token}
    (leftLexed : tokenize first = .ok left) (rightLexed : tokenize second = .ok right)
    (apart : Separator separator.toList) :
    tokenize (first ++ separator ++ second) = .ok (left.filter (·.kind != .endOfText) ++
      right.map (Token.lowered ((first ++ separator).toList.count '\n'))) ∧
    ∀ other : String, Separator other.toList →
      (tokenize (first ++ other ++ second)).map (·.map Token.content) =
        (tokenize (first ++ separator ++ second)).map (·.map Token.content) := by
  have joined {between : String} (apart : Separator between.toList) :
      tokenize (first ++ between ++ second) = .ok (left.filter (·.kind != .endOfText) ++
        right.map (Token.lowered ((first ++ between).toList.count '\n'))) := by
    have whole := (tokenizeFrom_eq_ok_iff.mp leftLexed).join
      (tokenizeFrom_eq_ok_iff.mp rightLexed) apart
    rw [tokenize, String.toList_append, String.toList_append]
    exact tokenizeFrom_eq_ok_iff.mpr whole
  refine ⟨joined apart, ?_⟩
  intro other otherApart
  rw [joined apart, joined otherApart]
  simp only [Except.map, List.map_append, map_content_lowered]

/-- A comment is open where the first text ends, and the second one starts with a bracket. -/
theorem tokenize_join_commented :
    tokenize "struct a // [" =
        .ok [⟨.keyword, "struct", 1⟩, ⟨.identifier, "a", 1⟩, ⟨.endOfText, "", 1⟩] ∧
      tokenize "[ 2 ]b" =
        .ok [⟨.dimension, "2", 1⟩, ⟨.identifier, "b", 1⟩, ⟨.endOfText, "", 1⟩] ∧
      Separator "\n /* ]\n *///[\n".toList ∧
      tokenize ("struct a // [" ++ "\n /* ]\n *///[\n" ++ "[ 2 ]b") =
        .ok [⟨.keyword, "struct", 1⟩, ⟨.identifier, "a", 1⟩, ⟨.dimension, "2", 4⟩,
          ⟨.identifier, "b", 4⟩, ⟨.endOfText, "", 4⟩] := by
  have left : tokenize "struct a // [" =
      .ok [⟨.keyword, "struct", 1⟩, ⟨.identifier, "a", 1⟩, ⟨.endOfText, "", 1⟩] := by
    decide +kernel
  have right : tokenize "[ 2 ]b" =
      .ok [⟨.dimension, "2", 1⟩, ⟨.identifier, "b", 1⟩, ⟨.endOfText, "", 1⟩] := by
    decide +kernel
  have apart : Separator "\n /* ]\n *///[\n".toList := by
    have last : Filler ('/' :: '/' :: (['['] ++ '\n' :: [])) := .lineComment (by decide) .nil
    have block : Filler ('/' :: '*' :: (" ]\n ".toList ++ '*' :: '/' :: _)) :=
      .blockComment (by decide) last
    exact ⟨_, rfl, .blank (by decide) block⟩
  exact ⟨left, right, apart, (tokenize_join left right apart).1⟩

end Source

end Wireform
