import Wireform.Proofs.Source.Lexemes
import Wireform.Proofs.Text.Classes

/-! # Written text is read as its tokens

A piece of text scans as some tokens when it gives these tokens whatever follows it
(`Wireform.Source.Scans`), so pieces can be put one after another. A word takes in as much as it
can, and is read as it stands only before a character that cannot go on in a name
(`Wireform.Source.Scans.word`).
-/

namespace Wireform.Source

open Wireform.Text

/-- A piece of text gives some tokens and leads to a line, whatever follows. -/
def Scans (line : Nat) (text : List Char) (tokens : List Token) (next : Nat) : Prop :=
  ∀ rest, tokenizeFrom line (text ++ rest) = (tokenizeFrom next rest).map (tokens ++ ·)

section Pieces

variable {line middle next : Nat} {text more : List Char} {tokens others : List Token}

/-- No text gives no tokens. -/
theorem Scans.nil : Scans line [] [] line := by
  intro rest
  rw [List.nil_append]
  cases tokenizeFrom line rest <;> rfl

/-- Pieces of text are scanned one after the other. -/
theorem Scans.append (left : Scans line text tokens middle)
    (right : Scans middle more others next) :
    Scans line (text ++ more) (tokens ++ others) next := by
  intro rest
  rw [List.append_assoc, left, right]
  cases tokenizeFrom next rest with
  | error fault => rfl
  | ok found => simp [Except.map]

/-- Text that was scanned to its end is read as its tokens and the end. -/
theorem Scans.read (scanned : Scans line text tokens next) :
    tokenizeFrom line text = .ok (tokens ++ [⟨.endOfText, "", next⟩]) := by
  have whole := scanned []
  rw [List.append_nil] at whole
  rw [whole, tokenizeFrom.eq_def]
  rfl

/-- A piece that is skipped gives no tokens. -/
theorem Scans.skip (move : ∀ rest, Move line (text ++ rest) (.skip next rest)) :
    Scans line text [] next := by
  intro rest
  obtain ⟨c, others, shape⟩ := (move rest).exists_cons
  rw [shape, tokenizeFrom_of_skip (scan_of_move (shape ▸ move rest))]
  exact Scans.nil rest

private theorem Scans.token {token : Token}
    (move : ∀ rest, Move line (text ++ rest) (.token token rest)) :
    Scans line text [token] line := by
  intro rest
  obtain ⟨c, others, shape⟩ := (move rest).exists_cons
  rw [shape, tokenizeFrom_of_token (scan_of_move (shape ▸ move rest))]
  rfl

/-- A line break leads to the next line. -/
theorem scans_break : Scans line ['\n'] [] (line + 1) := .skip fun _ => .lineBreak

/-- A space is skipped. -/
theorem scans_space : Scans line [' '] [] line := .skip fun _ => .blank (.inl rfl)

/-- A symbol is a token of one character. -/
theorem scans_symbol {c : Char} (known : isSymbol c = true) :
    Scans line [c] [⟨.symbol, c.toString, line⟩] line := .token fun _ => .symbol known

private theorem strip_of_forall {text : List Char} (each : ∀ c ∈ text, isBlank c = false) :
    strip text = text := by
  have front {some : List Char} (plain : ∀ c ∈ some, isBlank c = false) :
      some.dropWhile isBlank = some := by
    cases some with
    | nil => rfl
    | cons c rest => exact List.dropWhile_cons_of_neg (by simp [plain c List.mem_cons_self])
  rw [strip, front each, front fun c inside => each c (List.mem_reverse.mp inside),
    List.reverse_reverse]

/-- A dimension of word characters is read without losing any. -/
theorem scans_dimension {size : List Char} (each : ∀ c ∈ size, isWordChar c = true ∨ c = '_') :
    Scans line ('[' :: (size ++ [']'])) [⟨.dimension, String.ofList size, line⟩] line := by
  have absent {d : Char} (other : isWordChar d = false) (plain : d ≠ '_') : d ∉ size := by
    intro inside
    rcases each d inside with word | underscore
    · rw [other] at word
      cases word
    · exact plain underscore
  have noBlank : ∀ c ∈ size, isBlank c = false := by
    intro c inside
    by_cases blank : isBlank c = true
    · have other := isWordChar_eq_false_of_isBlank blank
      exact absurd inside (absent other (by rintro rfl; cases blank))
    · exact Bool.eq_false_iff.mpr blank
  refine .token fun rest => ?_
  have move : Move line _ (.token _ rest) :=
    .dimension (absent (by decide) (by decide)) (absent (by decide) (by decide))
  rw [strip_of_forall noBlank] at move
  simpa using move

/-- Text that begins with a character that cannot go on in a name. -/
def StopsName (text : List Char) : Prop :=
  ∃ c rest, text = c :: rest ∧ isNamePart c = false

/-- A word is read whole where the text after it cannot go on in a name. -/
theorem Scans.word {word : List Char} (scanned : Scans line text tokens next) (spelt : Word word)
    (stops : StopsName text) :
    Scans line (word ++ text) (wordToken line (String.ofList word) :: tokens) next := by
  intro rest
  obtain ⟨first, others, rfl, -⟩ := spelt.start
  obtain ⟨c, more, rfl, stop⟩ := stops
  have left := scanned rest
  rw [List.cons_append] at left
  have move : Move line (first :: (others ++ c :: (more ++ rest)))
      (.token (wordToken line (String.ofList (first :: others))) (c :: (more ++ rest))) :=
    .word spelt (ends_cons.mpr stop)
  rw [List.append_assoc, List.cons_append, List.cons_append,
    tokenizeFrom_of_token (scan_of_move move), left]
  cases tokenizeFrom next rest <;> rfl

end Pieces

end Wireform.Source
