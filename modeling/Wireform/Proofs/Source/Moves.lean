import Mathlib.Data.List.Infix
import Wireform.Proofs.Text.Classes
import Wireform.Proofs.Text.Runs
import Wireform.Source.Lexer

/-! # The moves of the lexer

At the start of a text the lexer makes one move. It skips a line break, a blank or a comment, or it
finds a token, and it leaves the text after that. The moves are listed by the shape of the text,
each with where it ends (`Wireform.Source.Move`), and a step that meets no fault makes the move that
the text has (`Wireform.Source.move_of_scan`, `Wireform.Source.scan_of_move`). So a text is read
exactly where moves lead to its end (`Wireform.Source.tokenizeFrom_eq_ok_iff`), and what holds of
every reading is shown move by move.
-/

namespace Wireform.Source

open Wireform.Text

/-- The spelling of a word. No dot ends it or stands before another dot. -/
structure Word (text : List Char) : Prop where
  start : ∃ first rest, text = first :: rest ∧ isNameStart first = true
  parts : ∀ c ∈ text, isNamePart c = true
  dots : hasDanglingDot text = false

private theorem isNamePart_of_isNameStart {c : Char} (start : isNameStart c = true) :
    isNamePart c = true := by
  unfold isNameStart at start
  unfold isNamePart
  rcases Bool.or_eq_true_iff.mp start with letter | underscore
  · rw [Text.isWordChar_of_isLetter letter]
    rfl
  · rw [underscore]
    simp

/-! ### Block comments -/

/-- A block comment is split off at the first mark that closes it. -/
theorem splitComment_eq_some_iff {text body rest : List Char} :
    splitComment text = some (body, rest) ↔
      text = body ++ '*' :: '/' :: rest ∧ ¬['*', '/'] <:+: body ++ ['*'] := by
  fun_induction splitComment text generalizing body rest with
  | case1 after =>
      constructor
      · intro split
        obtain ⟨rfl, rfl⟩ := Prod.mk.inj (Option.some.inj split)
        exact ⟨rfl, by decide⟩
      · rintro ⟨shape, unclosed⟩
        rcases body with _ | ⟨c, _ | ⟨d, body⟩⟩
        · obtain rfl := (List.cons.inj (List.cons.inj shape).2).2
          rfl
        · cases (List.cons.inj (List.cons.inj shape).2).1
        · obtain ⟨rfl, rest⟩ := List.cons.inj (List.cons.inj shape).2
          obtain rfl := (List.cons.inj shape).1
          exact absurd ⟨[], body ++ ['*'], rfl⟩ unclosed
  | case2 c text notClosed ih =>
      constructor
      · intro split
        obtain ⟨⟨inner, left⟩, found, pair⟩ := Option.map_eq_some_iff.mp split
        obtain ⟨rfl, rfl⟩ := Prod.mk.inj pair
        obtain ⟨rfl, unclosed⟩ := ih.mp found
        refine ⟨rfl, ?_⟩
        rw [List.cons_append, List.infix_cons_iff]
        rintro (⟨more, first⟩ | later)
        · obtain ⟨rfl, second⟩ := List.cons.inj first
          cases inner with
          | nil => cases (List.cons.inj second).1
          | cons d inner =>
              obtain ⟨rfl, -⟩ := List.cons.inj second
              exact notClosed _ rfl rfl
        · exact unclosed later
      · rintro ⟨shape, unclosed⟩
        cases body with
        | nil =>
            obtain ⟨rfl, rfl⟩ := List.cons.inj shape
            exact absurd rfl (notClosed _ rfl)
        | cons d body =>
            obtain ⟨rfl, rfl⟩ := List.cons.inj shape
            have inner : ¬['*', '/'] <:+: body ++ ['*'] :=
              fun later => unclosed (List.infix_cons_iff.mpr (.inr later))
            rw [ih.mpr ⟨rfl, inner⟩]
            rfl
  | case3 => simp

/-! ### Moves -/

/-- What one step does at a text, the first character of which stands on `line`. -/
inductive Move (line : Nat) : List Char → Scan → Prop
  | lineBreak {rest : List Char} : Move line ('\n' :: rest) (.skip (line + 1) rest)
  | blank {c : Char} {rest : List Char} (blank : c = ' ' ∨ c = '\t' ∨ c = '\r') :
      Move line (c :: rest) (.skip line rest)
  | lineComment {body rest : List Char} (unbroken : '\n' ∉ body) (ends : Ends (· != '\n') rest) :
      Move line ('/' :: '/' :: (body ++ rest)) (.skip line rest)
  | blockComment {body rest : List Char} (unclosed : ¬['*', '/'] <:+: body ++ ['*']) :
      Move line ('/' :: '*' :: (body ++ '*' :: '/' :: rest)) (.skip (line + body.count '\n') rest)
  | dimension {raw rest : List Char} (unclosed : ']' ∉ raw) (unbroken : '\n' ∉ raw) :
      Move line ('[' :: (raw ++ ']' :: rest))
        (.token ⟨.dimension, String.ofList (strip raw), line⟩ rest)
  | symbol {c : Char} {rest : List Char} (known : isSymbol c = true) :
      Move line (c :: rest) (.token ⟨.symbol, c.toString, line⟩ rest)
  | number {first : Char} {digits rest : List Char}
      (each : ∀ c ∈ first :: digits, isDigit c = true) (ends : Ends isDigit rest) :
      Move line (first :: (digits ++ rest))
        (.token ⟨.number, String.ofList (first :: digits), line⟩ rest)
  | word {first : Char} {parts rest : List Char} (spelt : Word (first :: parts))
      (ends : Ends isNamePart rest) :
      Move line (first :: (parts ++ rest))
        (.token (wordToken line (String.ofList (first :: parts))) rest)

section Steps

variable {line : Nat} {c : Char} {rest : List Char}

private theorem scan_eq_scanWord (rest : List Char) (noBreak : c ≠ '\n')
    (noBlank : ¬(c = ' ' ∨ c = '\t' ∨ c = '\r')) (noSlash : c ≠ '/') (noBracket : c ≠ '[') :
    scan line c rest = scanWord line c rest := by
  unfold scan
  rw [if_neg noBreak, if_neg noBlank]
  split
  · exact absurd rfl noSlash
  · exact absurd rfl noSlash
  · exact absurd rfl noBracket
  · rfl

private theorem isSymbol_iff : isSymbol c = true ↔ c = '\x7b' ∨ c = '\x7d' ∨ c = ';' ∨ c = ',' := by
  simp [isSymbol, or_assoc]

private theorem isSymbol_eq_false_of_isDigit (digit : isDigit c = true) : isSymbol c = false := by
  rw [← Bool.not_eq_true, isSymbol_iff]
  rintro (rfl | rfl | rfl | rfl) <;> exact absurd digit (by decide)

private theorem isDigit_eq_false_of_isNameStart (start : isNameStart c = true) :
    isDigit c = false := by
  rcases Bool.or_eq_true_iff.mp start with letter | underscore
  · exact isDigit_eq_false_of_isLetter letter
  · rw [beq_iff_eq.mp underscore]
    decide

private theorem isSymbol_eq_false_of_isNameStart (start : isNameStart c = true) :
    isSymbol c = false := by
  rw [← Bool.not_eq_true, isSymbol_iff]
  rintro (rfl | rfl | rfl | rfl) <;> cases start

/-- A step over a symbol, a digit or the start of a name reads a word. -/
theorem scan_eq_scanWord_of_lexeme
    (start : isSymbol c = true ∨ isDigit c = true ∨ isNameStart c = true) :
    scan line c rest = scanWord line c rest := by
  apply scan_eq_scanWord
  · rintro rfl
    revert start
    decide
  · rintro (rfl | rfl | rfl) <;> revert start <;> decide
  · rintro rfl
    revert start
    decide
  · rintro rfl
    revert start
    decide

/-- A step makes the move that the text has. -/
theorem scan_of_move {found : Scan} (move : Move line (c :: rest) found) :
    scan line c rest = found := by
  cases move with
  | lineBreak =>
      unfold scan
      rw [if_pos rfl]
  | blank blank =>
      have noBreak : c ≠ '\n' := by
        rintro rfl
        revert blank
        decide
      unfold scan
      rw [if_neg noBreak, if_pos blank]
  | @lineComment body rest unbroken ends =>
      rw [scan, if_neg (by decide), if_neg (by decide)]
      simp only [(takeWhile_of_ends (forall_bne unbroken) ends).2]
  | @blockComment body rest unclosed =>
      have found : splitComment (body ++ '*' :: '/' :: rest) = some (body, rest) :=
        splitComment_eq_some_iff.mpr ⟨rfl, unclosed⟩
      rw [scan, if_neg (by decide), if_neg (by decide)]
      simp only [found]
  | @dimension raw rest unclosed unbroken =>
      obtain ⟨taken, left⟩ := takeWhile_bne unclosed rest
      have noBreak : ¬raw.contains '\n' = true := by rwa [List.contains_iff_mem]
      rw [scan, if_neg (by decide), if_neg (by decide)]
      simp only [scanDimension, taken, left]
      rw [if_neg noBreak]
  | symbol known => rw [scan_eq_scanWord_of_lexeme (.inl known), scanWord, if_pos known]
  | @number first digits rest each ends =>
      have digit := each c List.mem_cons_self
      obtain ⟨taken, left⟩ := takeWhile_of_ends (fun d inside => each d (.tail _ inside)) ends
      rw [scan_eq_scanWord_of_lexeme (.inr (.inl digit)), scanWord,
        if_neg (by simp [isSymbol_eq_false_of_isDigit digit]), if_pos digit, taken, left]
  | @word first parts rest spelt ends =>
      obtain ⟨_, _, same, start⟩ := spelt.start
      obtain ⟨rfl, rfl⟩ := List.cons.inj same
      obtain ⟨taken, left⟩ :=
        takeWhile_of_ends (fun d inside => spelt.parts d (.tail _ inside)) ends
      rw [scan_eq_scanWord_of_lexeme (.inr (.inr start))]
      simp only [scanWord, isSymbol_eq_false_of_isNameStart start,
        isDigit_eq_false_of_isNameStart start, start, taken, left, spelt.dots, Bool.false_eq_true,
        ↓reduceIte]

private theorem move_of_scanWord :
    (∃ cause, scanWord line c rest = .fault (.atLine line cause)) ∨
      Move line (c :: rest) (scanWord line c rest) := by
  unfold scanWord
  split
  · next known => exact .inr (.symbol known)
  · split
    · next digit =>
        right
        have each : ∀ d ∈ c :: rest.takeWhile isDigit, isDigit d = true := by
          intro d member
          rcases List.mem_cons.mp member with rfl | later
          · exact digit
          · exact List.mem_takeWhile_imp later
        have move : Move line _ _ := .number each (ends_dropWhile rest)
        rwa [List.takeWhile_append_dropWhile] at move
    · split
      · next start =>
          dsimp only
          split
          · exact .inl ⟨_, rfl⟩
          · next dots =>
              right
              have spelt : Word (c :: rest.takeWhile isNamePart) := by
                refine ⟨⟨c, _, rfl, start⟩, ?_, Bool.eq_false_iff.mpr dots⟩
                intro d member
                rcases List.mem_cons.mp member with rfl | later
                · exact isNamePart_of_isNameStart start
                · exact List.mem_takeWhile_imp later
              have move : Move line _ _ := .word spelt (ends_dropWhile rest)
              rwa [List.takeWhile_append_dropWhile] at move
      · exact .inl ⟨_, rfl⟩

private theorem move_of_scanDimension :
    (∃ cause, scanDimension line rest = .fault (.atLine line cause)) ∨
      Move line ('[' :: rest) (scanDimension line rest) := by
  unfold scanDimension
  dsimp only
  split
  · exact .inl ⟨_, rfl⟩
  · next first after left =>
      split
      · exact .inl ⟨_, rfl⟩
      · next noBreak =>
          right
          obtain rfl : first = ']' := by
            have stop : Ends (· != ']') (rest.dropWhile (· != ']')) := ends_dropWhile rest
            rw [left] at stop
            simpa using ends_cons.mp stop
          have unclosed : ']' ∉ rest.takeWhile (· != ']') := by
            intro inside
            simpa using List.mem_takeWhile_imp inside
          have shape : rest.takeWhile (· != ']') ++ ']' :: after = rest := by
            rw [← left, List.takeWhile_append_dropWhile]
          have unbroken : '\n' ∉ rest.takeWhile (· != ']') := by
            rwa [List.contains_iff_mem] at noBreak
          have move : Move line _ (.token _ after) := .dimension unclosed unbroken
          rwa [shape] at move

/-- A step makes a move, or it meets a fault and reports its own line. -/
theorem move_of_scan :
    (∃ cause, scan line c rest = .fault (.atLine line cause)) ∨
      Move line (c :: rest) (scan line c rest) := by
  unfold scan
  split
  · next same =>
      right
      rw [same]
      exact .lineBreak
  · split
    · next blank => exact .inr (.blank blank)
    · split
      · next after _ _ =>
          right
          have unbroken : '\n' ∉ after.takeWhile (· != '\n') := by
            intro inside
            simpa using List.mem_takeWhile_imp inside
          have move : Move line _ _ := .lineComment unbroken (ends_dropWhile after)
          rwa [List.takeWhile_append_dropWhile] at move
      · next after _ _ =>
          split
          · exact .inl ⟨_, rfl⟩
          · next body left split =>
              obtain ⟨rfl, unclosed⟩ := splitComment_eq_some_iff.mp split
              exact .inr (.blockComment unclosed)
      · exact move_of_scanDimension
      · exact move_of_scanWord

/-- What a scan skips is skipped by a move. -/
theorem move_of_skip {next : Nat} {after : List Char}
    (found : scan line c rest = .skip next after) :
    Move line (c :: rest) (.skip next after) := by
  rcases move_of_scan with ⟨cause, failed⟩ | move
  · cases found.symm.trans failed
  · rwa [found] at move

/-- What a scan finds is found by a move. -/
theorem move_of_token {token : Token} {after : List Char}
    (found : scan line c rest = .token token after) :
    Move line (c :: rest) (.token token after) := by
  rcases move_of_scan with ⟨cause, failed⟩ | move
  · cases found.symm.trans failed
  · rwa [found] at move

/-- A scan is at fault on its own line. -/
theorem line_of_fault {fault : SourceFault} (found : scan line c rest = .fault fault) :
    ∃ cause, fault = .atLine line cause := by
  rcases move_of_scan with ⟨cause, failed⟩ | move
  · exact ⟨cause, Scan.fault.inj (found.symm.trans failed)⟩
  · rw [found] at move
    cases move

/-- A move takes at least one character. -/
theorem Move.exists_cons {text : List Char} {found : Scan} (move : Move line text found) :
    ∃ c rest, text = c :: rest := by
  cases move <;> exact ⟨_, _, rfl⟩

end Steps

/-! ### Readings -/

/-- The moves through a text up to its end, and the tokens that they find. -/
inductive Reading : Nat → List Char → List Token → Prop
  | finish {line : Nat} : Reading line [] [⟨.endOfText, "", line⟩]
  | skip {line next : Nat} {text rest : List Char} {tokens : List Token}
      (move : Move line text (.skip next rest)) (tail : Reading next rest tokens) :
      Reading line text tokens
  | token {line : Nat} {text rest : List Char} {token : Token} {tokens : List Token}
      (move : Move line text (.token token rest)) (tail : Reading line rest tokens) :
      Reading line text (token :: tokens)

section Readings

variable {line next : Nat} {c : Char} {text rest after : List Char} {tokens : List Token}

/-- Skipped text gives no tokens. -/
theorem tokenizeFrom_of_skip (found : scan line c rest = .skip next after) :
    tokenizeFrom line (c :: rest) = tokenizeFrom next after := by
  rw [tokenizeFrom.eq_def]
  dsimp only
  split
  · next same => cases found.symm.trans same; rfl
  · next same => cases found.symm.trans same
  · next same => cases found.symm.trans same

/-- A token that is found comes before those of the rest. -/
theorem tokenizeFrom_of_token {token : Token} (found : scan line c rest = .token token after) :
    tokenizeFrom line (c :: rest) = (tokenizeFrom line after).map (token :: ·) := by
  rw [tokenizeFrom.eq_def]
  dsimp only
  split
  · next same => cases found.symm.trans same
  · next same =>
      cases found.symm.trans same
      cases tokenizeFrom line after <;> rfl
  · next same => cases found.symm.trans same

/-- **A text is read as the tokens that its moves find.** -/
theorem tokenizeFrom_eq_ok_iff :
    tokenizeFrom line text = .ok tokens ↔ Reading line text tokens := by
  constructor
  · intro run
    fun_induction tokenizeFrom line text generalizing tokens with
    | case1 =>
        obtain rfl := Except.ok.inj run
        exact .finish
    | case2 line c rest next after found ih => exact .skip (move_of_skip found) (ih run)
    | case3 => cases run
    | case4 line c rest token after found others tail ih =>
        obtain rfl := Except.ok.inj run
        exact .token (move_of_token found) (ih tail)
    | case5 => cases run
  · intro reading
    induction reading with
    | finish => rw [tokenizeFrom.eq_def]
    | skip move tail ih =>
        obtain ⟨c, rest, rfl⟩ := move.exists_cons
        rw [tokenizeFrom_of_skip (scan_of_move move), ih]
    | token move tail ih =>
        obtain ⟨c, rest, rfl⟩ := move.exists_cons
        rw [tokenizeFrom_of_token (scan_of_move move), ih]
        rfl

end Readings

end Wireform.Source
