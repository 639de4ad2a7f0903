import Wireform.Proofs.Source.Lexemes

/-! # A text in pieces

A text that is read as tokens falls into pieces, one for each token and in the order of the tokens:
a gap of blanks and comments, and the lexeme that spells the token
(`Wireform.Source.isCut_of_tokenize`). Nothing is lost, since what stands after the last piece is a
gap again, in which a comment may run to the end of the text. Only gaps have line breaks in them
(`Wireform.Source.Spells.unbroken`), so the line of a token is told by the breaks before its lexeme.
-/

namespace Wireform.Source

open Wireform.Text

/-! ### Gaps -/

/-- Blanks, line breaks and comments. A comment of one line has its line break with it, and a block
comment ends at the first mark that closes it. -/
inductive Filler : List Char → Prop
  | nil : Filler []
  | blank {c : Char} {rest : List Char} (blank : c = ' ' ∨ c = '\t' ∨ c = '\r' ∨ c = '\n')
      (tail : Filler rest) : Filler (c :: rest)
  | lineComment {body rest : List Char} (unbroken : '\n' ∉ body) (tail : Filler rest) :
      Filler ('/' :: '/' :: (body ++ '\n' :: rest))
  | blockComment {body rest : List Char} (unclosed : ¬['*', '/'] <:+: body ++ ['*'])
      (tail : Filler rest) : Filler ('/' :: '*' :: (body ++ '*' :: '/' :: rest))

/-- What stands after the last lexeme of a text. -/
inductive FinalGap : List Char → Prop
  | filler {text : List Char} (filler : Filler text) : FinalGap text
  | lineComment {front body : List Char} (filler : Filler front) (unbroken : '\n' ∉ body) :
      FinalGap (front ++ '/' :: '/' :: body)

section Gaps

variable {first second text body : List Char}

private theorem Filler.append (left : Filler first) (right : Filler second) :
    Filler (first ++ second) := by
  induction left with
  | nil => exact right
  | blank blank tail ih => exact .blank blank ih
  | lineComment unbroken tail ih =>
      simpa only [List.cons_append, List.append_assoc] using Filler.lineComment unbroken ih
  | blockComment unclosed tail ih =>
      simpa only [List.cons_append, List.append_assoc] using Filler.blockComment unclosed ih

private theorem FinalGap.prepend (right : FinalGap second) (left : Filler first) :
    FinalGap (first ++ second) := by
  cases right with
  | filler right => exact .filler (left.append right)
  | lineComment right unbroken =>
      rw [← List.append_assoc]
      exact .lineComment (left.append right) unbroken

private theorem Filler.of_break (filler : Filler ('\n' :: text)) : Filler text := by
  cases filler with
  | blank blank tail => exact tail

private theorem FinalGap.of_break (gap : FinalGap ('\n' :: text)) : FinalGap text := by
  generalize whole : '\n' :: text = all at gap
  cases gap with
  | filler filler => exact .filler (whole ▸ filler).of_break
  | @lineComment front body filler unbroken =>
      cases front with
      | nil => cases whole
      | cons c front =>
          obtain ⟨rfl, rfl⟩ := List.cons.inj whole
          exact .lineComment filler.of_break unbroken

/-- A line break ends a comment of one line. -/
theorem Filler.comment (unbroken : '\n' ∉ body) (filler : Filler ('\n' :: text)) :
    Filler ('/' :: '/' :: body ++ '\n' :: text) :=
  .lineComment unbroken filler.of_break

end Gaps

/-! ### Lexemes -/

/-- How the text spells a token: as its value, or as a dimension in its brackets. -/
inductive Spells : List Char → Token → Prop
  | verbatim {lexeme : List Char} {token : Token}
      (kind : token.kind ∈ [TokenKind.keyword, .identifier, .number, .symbol])
      (value : lexeme = token.value.toList) : Spells lexeme token
  | bracketed {raw : List Char} {token : Token} (kind : token.kind = .dimension)
      (unclosed : ']' ∉ raw) (unbroken : '\n' ∉ raw)
      (value : token.value = String.ofList (strip raw)) : Spells ('[' :: (raw ++ [']'])) token

/-- A gap, the lexeme after it and the token that it spells. -/
structure Piece where
  gap : List Char
  lexeme : List Char
  token : Token

/-- The text of a piece. -/
def Piece.text (piece : Piece) : List Char := piece.gap ++ piece.lexeme

/-- A piece that may stand behind some text, the first character of which stands on `line`. -/
structure Piece.Fits (line : Nat) (before : List Char) (piece : Piece) : Prop where
  gap : Filler piece.gap
  spells : Spells piece.lexeme piece.token
  lexeme : Lexeme piece.token
  line : piece.token.line = line + (before ++ piece.gap).count '\n'

/-- A text on `line` cut into the pieces of some tokens and a last gap. -/
structure IsCut (line : Nat) (text : List Char) (tokens : List Token) (pieces : List Piece)
    (last : List Char) : Prop where
  content : text = pieces.flatMap Piece.text ++ last
  fits : ∀ before piece after, pieces = before ++ piece :: after →
    piece.Fits line (before.flatMap Piece.text)
  ends : FinalGap last
  found : tokens = pieces.map Piece.token ++ [⟨.endOfText, "", line + text.count '\n'⟩]

section Lexemes

variable {line next : Nat} {text rest lexeme : List Char} {token : Token}

private theorem Spells.unbroken (spells : Spells lexeme token) (known : Lexeme token) :
    '\n' ∉ lexeme := by
  cases spells with
  | bracketed kind unclosed unbroken value => simpa using unbroken
  | verbatim kind value =>
      subst value
      intro inside
      cases known with
      | symbol known =>
          rw [Char.toString, String.toList_singleton, List.mem_singleton] at inside
          subst inside
          cases known
      | number occupied each =>
          rw [String.toList_ofList] at inside
          exact absurd (each _ inside) (by decide)
      | word spelt =>
          rw [wordToken, String.toList_ofList] at inside
          exact absurd (spelt.parts _ inside) (by decide)
      | dimension => simp at kind

private theorem Spells.kind_ne_endOfText (spells : Spells lexeme token) :
    token.kind ≠ .endOfText := by
  intro ending
  cases spells with
  | verbatim kind value => simp [ending] at kind
  | bracketed kind unclosed unbroken value => cases kind.symm.trans ending

private theorem Spells.exists_cons (spells : Spells lexeme token) (known : Lexeme token) :
    ∃ c others, lexeme = c :: others := by
  cases spells with
  | bracketed kind unclosed unbroken value => exact ⟨_, _, rfl⟩
  | verbatim kind value =>
      subst value
      cases known with
      | @symbol line c known => exact ⟨c, [], by simp [Char.toString]⟩
      | number occupied each =>
          rw [String.toList_ofList]
          exact List.exists_cons_of_ne_nil occupied
      | word spelt =>
          obtain ⟨first, others, rfl, -⟩ := spelt.start
          exact ⟨first, others, by simp [wordToken]⟩
      | dimension => simp at kind

/-- A move that finds a token takes the lexeme of the token. -/
theorem Move.exists_lexeme (move : Move line text (.token token rest)) :
    ∃ lexeme, text = lexeme ++ rest ∧ Spells lexeme token ∧ token.line = line := by
  cases move with
  | @dimension raw rest unclosed unbroken =>
      exact ⟨'[' :: (raw ++ [']']), by simp, .bracketed rfl unclosed unbroken rfl, rfl⟩
  | @symbol c rest known =>
      exact ⟨[c], rfl, .verbatim (by simp) (by simp [Char.toString]), rfl⟩
  | @number first digits rest each ends =>
      exact ⟨first :: digits, rfl, .verbatim (by simp) (by simp), rfl⟩
  | @word first parts rest spelt ends =>
      refine ⟨first :: parts, rfl, .verbatim ?_ (by simp [wordToken]), rfl⟩
      rw [wordToken]
      split <;> simp

/-- A move that finds nothing skips a filler, or a comment up to the end of its line. -/
theorem Move.exists_skipped (move : Move line text (.skip next rest)) :
    ∃ skipped, text = skipped ++ rest ∧ next = line + skipped.count '\n' ∧
      (Filler skipped ∨
        (∃ body, skipped = '/' :: '/' :: body ∧ '\n' ∉ body) ∧ Ends (· != '\n') rest) := by
  cases move with
  | lineBreak => exact ⟨['\n'], rfl, rfl, .inl (.blank (by simp) .nil)⟩
  | blank blank =>
      refine ⟨[_], rfl, ?_, .inl (.blank ?_ .nil)⟩
      · rcases blank with rfl | rfl | rfl <;> rfl
      · rcases blank with rfl | rfl | rfl <;> simp
  | @lineComment body rest unbroken ends =>
      refine ⟨'/' :: '/' :: body, rfl, ?_, .inr ⟨⟨body, rfl, unbroken⟩, ends⟩⟩
      simp [List.count_eq_zero.mpr unbroken]
  | @blockComment body rest unclosed =>
      refine ⟨'/' :: '*' :: (body ++ ['*', '/']), by simp, ?_, .inl (.blockComment unclosed .nil)⟩
      simp

/-- What is skipped moves the line on by its line breaks. -/
theorem Move.count_skip (move : Move line text (.skip next rest)) :
    line + text.count '\n' = next + rest.count '\n' := by
  obtain ⟨skipped, rfl, lines, -⟩ := move.exists_skipped
  rw [lines, List.count_append, Nat.add_assoc]

/-- Lines do not go back. -/
theorem Move.le_next (move : Move line text (.skip next rest)) : line ≤ next := by
  obtain ⟨skipped, -, rfl, -⟩ := move.exists_skipped
  exact Nat.le_add_right _ _

/-- No line break lies in a token. -/
theorem Move.count_token (move : Move line text (.token token rest)) :
    text.count '\n' = rest.count '\n' := by
  obtain ⟨lexeme, rfl, spells, -⟩ := move.exists_lexeme
  rw [List.count_append, List.count_eq_zero.mpr (spells.unbroken move.lexeme), Nat.zero_add]

end Lexemes

/-! ### Cuts -/

namespace IsCut

variable {line next : Nat} {rest lexeme skipped last : List Char} {first : Token}
  {tokens : List Token} {pieces : List Piece}

private theorem finish (line : Nat) : IsCut line [] [⟨.endOfText, "", line⟩] [] [] where
  content := rfl
  fits := by simp
  ends := .filler .nil
  found := rfl

/-- A lexeme in front of a text that is cut starts a piece without a gap. -/
theorem token (cut : IsCut line rest tokens pieces last) (spells : Spells lexeme first)
    (known : Lexeme first) (stands : first.line = line) :
    IsCut line (lexeme ++ rest) (first :: tokens) (⟨[], lexeme, first⟩ :: pieces) last := by
  have flat : lexeme.count '\n' = 0 := List.count_eq_zero.mpr (spells.unbroken known)
  refine ⟨?_, ?_, cut.ends, ?_⟩
  · rw [cut.content]
    simp [Piece.text]
  · intro before piece after shape
    rcases List.cons_eq_append_iff.mp shape with ⟨rfl, head⟩ | ⟨earlier, rfl, tail⟩
    · obtain ⟨rfl, -⟩ := List.cons.inj head
      exact ⟨.nil, spells, known, stands⟩
    · have fits := cut.fits earlier piece after tail
      refine ⟨fits.gap, fits.spells, fits.lexeme, ?_⟩
      rw [fits.line]
      simp [Piece.text, flat]
  · rw [cut.found]
    simp [flat]

/-- What is skipped in front of a text that is cut belongs to its first gap. -/
theorem skip (cut : IsCut next rest tokens pieces last)
    (lines : next = line + skipped.count '\n')
    (joins : ∀ piece others, pieces = piece :: others → Filler (skipped ++ piece.gap))
    (runsOut : pieces = [] → FinalGap (skipped ++ last)) :
    ∃ pieces last, IsCut line (skipped ++ rest) tokens pieces last := by
  subst lines
  cases pieces with
  | nil =>
      refine ⟨[], skipped ++ last, ?_, by simp, runsOut rfl, ?_⟩
      · rw [cut.content]
        rfl
      · rw [cut.found, List.count_append, Nat.add_assoc]
  | cons head others =>
      refine ⟨{ head with gap := skipped ++ head.gap } :: others, last, ?_, ?_, cut.ends, ?_⟩
      · rw [cut.content]
        simp [Piece.text]
      · intro before piece after shape
        rcases List.cons_eq_append_iff.mp shape with ⟨rfl, same⟩ | ⟨earlier, rfl, tail⟩
        · obtain ⟨rfl, -⟩ := List.cons.inj same
          have fits := cut.fits [] head others rfl
          refine ⟨joins head others rfl, fits.spells, fits.lexeme, ?_⟩
          rw [fits.line]
          simp [Nat.add_assoc]
        · have fits := cut.fits (head :: earlier) piece after (by rw [tail]; rfl)
          refine ⟨fits.gap, fits.spells, fits.lexeme, ?_⟩
          rw [fits.line]
          simp only [List.flatMap_cons, Piece.text, List.count_append]
          omega
      · rw [cut.found, List.count_append, Nat.add_assoc]
        rfl

/-- A comment up to the end of its line is skipped with the line break of the gap after it, if the
text goes on. -/
theorem skip_lineComment {body : List Char} (cut : IsCut line rest tokens pieces last)
    (unbroken : '\n' ∉ body) (ends : Ends (· != '\n') rest) :
    ∃ pieces last, IsCut line ('/' :: '/' :: body ++ rest) tokens pieces last := by
  apply cut.skip
  · simp [List.count_eq_zero.mpr unbroken]
  · rintro piece others rfl
    have fits := cut.fits [] piece others rfl
    obtain ⟨c, left, lexeme⟩ := fits.spells.exists_cons fits.lexeme
    have content := cut.content
    rw [List.flatMap_cons, Piece.text, lexeme] at content
    cases gap : piece.gap with
    | nil =>
        -- a lexeme would follow the comment at once, but it has no line break
        rw [gap] at content
        rw [content] at ends
        obtain rfl : c = '\n' := by simpa using ends_cons.mp ends
        exact absurd (lexeme ▸ List.mem_cons_self) (fits.spells.unbroken fits.lexeme)
    | cons d gapRest =>
        rw [gap] at content
        rw [content] at ends
        obtain rfl : d = '\n' := by simpa using ends_cons.mp ends
        exact .comment unbroken (gap ▸ fits.gap)
  · rintro rfl
    obtain rfl : rest = last := cut.content
    cases rest with
    | nil => exact .lineComment .nil (by simpa using unbroken)
    | cons c rest =>
        obtain rfl : c = '\n' := by simpa using ends_cons.mp ends
        have comment : Filler ('/' :: '/' :: (body ++ ['\n'])) := .lineComment unbroken .nil
        simpa using cut.ends.of_break.prepend comment

end IsCut

/-- **A reading loses nothing.** The text falls into gaps and the lexemes of the tokens. -/
theorem Reading.exists_isCut {line : Nat} {text : List Char} {tokens : List Token}
    (reading : Reading line text tokens) : ∃ pieces last, IsCut line text tokens pieces last := by
  induction reading with
  | @finish line => exact ⟨[], [], .finish line⟩
  | token move tail ih =>
      obtain ⟨pieces, last, cut⟩ := ih
      obtain ⟨lexeme, rfl, spells, stands⟩ := move.exists_lexeme
      exact ⟨_, last, cut.token spells move.lexeme stands⟩
  | skip move tail ih =>
      obtain ⟨pieces, last, cut⟩ := ih
      obtain ⟨skipped, rfl, lines, filler | ⟨⟨body, rfl, unbroken⟩, ends⟩⟩ := move.exists_skipped
      · refine cut.skip lines ?_ fun _ => cut.ends.prepend filler
        rintro piece others rfl
        exact filler.append (cut.fits [] piece others rfl).gap
      · obtain rfl : _ = _ := by simpa [List.count_eq_zero.mpr unbroken] using lines
        exact cut.skip_lineComment unbroken ends

/-- The tokens stand on the lines of the text. -/
theorem Reading.lines {line : Nat} {text : List Char} {tokens : List Token}
    (reading : Reading line text tokens) :
    ∀ token ∈ tokens, line ≤ token.line ∧ token.line ≤ line + text.count '\n' := by
  induction reading with
  | finish => simp
  | skip move tail ih =>
      intro token member
      have bounds := ih token member
      have later := move.le_next
      have lines := move.count_skip
      omega
  | @token line text rest first tokens move tail ih =>
      obtain ⟨-, -, -, stands⟩ := move.exists_lexeme
      rw [move.count_token]
      refine List.forall_mem_cons.mpr ⟨?_, ih⟩
      omega

/-- **The tokens of a text account for all of it.** The text is cut into a gap and a lexeme for each
token and a last gap. Each lexeme spells its token and stands on the token's line, and the only
token that has no lexeme is the end token, which is the last one and stands on the last line. -/
theorem isCut_of_tokenize {text : String} {tokens : List Token}
    (lexed : tokenize text = .ok tokens) :
    ∃ pieces last, IsCut 1 text.toList tokens pieces last ∧
      ∀ piece ∈ pieces, piece.token.kind ≠ .endOfText := by
  obtain ⟨pieces, last, cut⟩ := (tokenizeFrom_eq_ok_iff.mp lexed).exists_isCut
  refine ⟨pieces, last, cut, ?_⟩
  intro piece listed
  obtain ⟨before, after, shape⟩ := List.append_of_mem listed
  exact (cut.fits before piece after shape).spells.kind_ne_endOfText

/-- A text with a comment of each kind, with blanks in brackets and with a dotted name. -/
theorem isCut_of_tokenize_commented :
    ∃ tokens pieces last,
      tokenize "/* a\n/ * */struct a\x7b p.b x[ 2\t];//]\n// *\x7d" = .ok tokens ∧
      IsCut 1 "/* a\n/ * */struct a\x7b p.b x[ 2\t];//]\n// *\x7d".toList tokens pieces last ∧
      tokens = [⟨.keyword, "struct", 2⟩, ⟨.identifier, "a", 2⟩, ⟨.symbol, "\x7b", 2⟩,
        ⟨.identifier, "p.b", 2⟩, ⟨.identifier, "x", 2⟩, ⟨.dimension, "2", 2⟩, ⟨.symbol, ";", 2⟩,
        ⟨.endOfText, "", 3⟩] := by
  have lexed : tokenize "/* a\n/ * */struct a\x7b p.b x[ 2\t];//]\n// *\x7d" =
      .ok [⟨.keyword, "struct", 2⟩, ⟨.identifier, "a", 2⟩, ⟨.symbol, "\x7b", 2⟩,
        ⟨.identifier, "p.b", 2⟩, ⟨.identifier, "x", 2⟩, ⟨.dimension, "2", 2⟩, ⟨.symbol, ";", 2⟩,
        ⟨.endOfText, "", 3⟩] := by decide +kernel
  obtain ⟨pieces, last, cut, -⟩ := isCut_of_tokenize lexed
  exact ⟨_, pieces, last, lexed, cut, rfl⟩

end Wireform.Source
