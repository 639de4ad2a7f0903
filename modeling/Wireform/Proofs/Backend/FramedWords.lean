import Wireform.Proofs.Backend.Legible

/-! # Words in a frame

A generated line marks some words by the characters around them: an index stands between brackets, a
method between a dot and a parenthesis. Such a word can lie across the parts from which a line is
put together only if the part before the joint ends with a character that opens a frame, but for
characters of the word, and the part behind it closes one first
(`Wireform.Backend.Frame.mem_words_append`). So the framed words of a line are found part by part: a
part that is known to be settled, which leaves no frame open, can be followed by any text
(`Wireform.Backend.Frame.Settled.then`), and a name can follow any part
(`Wireform.Backend.Frame.Fits.name`).
-/

namespace Wireform.Backend

/-- The characters before a word, in it, and behind it. A word takes in as many characters as it
can. -/
structure Frame where
  opens : Char → Bool
  inner : Char → Bool
  closes : Char → Bool
  starts : ∀ c, opens c = true → inner c = false
  stops : ∀ c, closes c = true → inner c = false

namespace Frame

/-- The words of a text that stand in a frame. -/
def words (frame : Frame) : List Char → List (List Char)
  | [] => []
  | c :: rest =>
      match frame.opens c, rest.dropWhile frame.inner with
      | true, d :: _ =>
          if frame.closes d then rest.takeWhile frame.inner :: words frame rest
          else words frame rest
      | _, _ => words frame rest

/-- Whether a text ends with a character that opens a frame, but for characters of a word. -/
def leavesOpen (frame : Frame) : List Char → Bool
  | [] => false
  | c :: rest => if rest.all frame.inner then frame.opens c else leavesOpen frame rest

/-- Whether a text closes a frame first, but for characters of a word. -/
def closesFirst (frame : Frame) (text : List Char) : Bool :=
  (text.dropWhile frame.inner).head?.any frame.closes

variable {frame : Frame}

private theorem words_cons_of_not_opens {c : Char} (plain : frame.opens c = false)
    (rest : List Char) :
    frame.words (c :: rest) = frame.words rest := by
  rw [words, plain]

/-- A character that opens a frame is followed by a word if another closes it. -/
theorem words_cons_of_opens {c : Char} (opens : frame.opens c = true) (rest : List Char) :
    frame.words (c :: rest) =
      (if frame.closesFirst rest then [rest.takeWhile frame.inner] else []) ++
        frame.words rest := by
  rw [words, opens, closesFirst]
  cases rest.dropWhile frame.inner with
  | nil => rfl
  | cons d tail =>
      by_cases closes : frame.closes d = true
      · simp [closes]
      · simp [closes]

private theorem mem_words_cons_of_mem {word : List Char} {c : Char} {rest : List Char}
    (later : word ∈ frame.words rest) : word ∈ frame.words (c :: rest) := by
  by_cases opens : frame.opens c = true
  · rw [words_cons_of_opens opens]
    exact List.mem_append_right _ later
  · rwa [words_cons_of_not_opens (Bool.eq_false_iff.mpr opens)]

/-- A word between characters that open and close a frame is framed. -/
theorem mem_words_of_infix {o c : Char} {word text : List Char} (opens : frame.opens o = true)
    (inner : ∀ i ∈ word, frame.inner i = true) (closes : frame.closes c = true)
    (found : o :: (word ++ [c]) <:+: text) : word ∈ frame.words text := by
  obtain ⟨before, after, rfl⟩ := found
  have stops := frame.stops c closes
  have behind : (word ++ c :: after).dropWhile frame.inner = c :: after := by
    rw [List.dropWhile_append_of_pos inner, List.dropWhile_cons_of_neg (by rw [stops]; simp)]
  have taken : (word ++ c :: after).takeWhile frame.inner = word := by
    rw [List.takeWhile_append_of_pos inner, List.takeWhile_cons_of_neg (by rw [stops]; simp),
      List.append_nil]
  induction before with
  | nil =>
      rw [List.nil_append, List.cons_append, List.append_assoc, List.singleton_append,
        words_cons_of_opens opens, closesFirst, behind, taken]
      simp [closes]
  | cons d before ih => exact mem_words_cons_of_mem ih

private theorem words_append_of_not_opens {first : List Char}
    (plain : ∀ c ∈ first, frame.opens c = false)
    (rest : List Char) : frame.words (first ++ rest) = frame.words rest := by
  induction first with
  | nil => rfl
  | cons c first ih =>
      obtain ⟨here, later⟩ := List.forall_mem_cons.mp plain
      rw [List.cons_append, words_cons_of_not_opens here, ih later]

/-- A word is framed by what stands before and behind it. -/
theorem words_cons_append_cons {o c : Char} {word : List Char} (opens : frame.opens o = true)
    (inner : ∀ i ∈ word, frame.inner i = true) (closes : frame.closes c = true)
    (shut : frame.opens c = false) (rest : List Char) :
    frame.words (o :: (word ++ c :: rest)) = word :: frame.words rest := by
  have stops : ¬ frame.inner c = true := by
    rw [frame.stops c closes]
    exact Bool.false_ne_true
  have plain : ∀ i ∈ word, frame.opens i = false := by
    intro i member
    refine Bool.eq_false_iff.mpr fun again => ?_
    have outside := frame.starts i again
    rw [inner i member] at outside
    cases outside
  have unclosed : frame.closesFirst (word ++ c :: rest) = true := by
    rw [closesFirst, List.dropWhile_append_of_pos inner, List.dropWhile_cons_of_neg stops]
    simpa using closes
  rw [words_cons_of_opens opens, if_pos unclosed, List.takeWhile_append_of_pos inner,
    List.takeWhile_cons_of_neg stops, List.append_nil, words_append_of_not_opens plain,
    words_cons_of_not_opens shut, List.singleton_append]

/-! ### Joints -/

/-- Whether joined texts close a frame first is told by the first that is more than part of a word.
-/
theorem closesFirst_append (first second : List Char) :
    frame.closesFirst (first ++ second) =
      if first.all frame.inner then frame.closesFirst second else frame.closesFirst first := by
  unfold closesFirst
  split
  · next inner => rw [List.dropWhile_append_of_pos (List.all_eq_true.mp inner)]
  · next mixed =>
      have some : first.dropWhile frame.inner ≠ [] := fun none =>
        mixed (List.all_eq_true.mpr (List.dropWhile_eq_nil_iff.mp none))
      obtain ⟨c, rest, shape⟩ := List.exists_cons_of_ne_nil some
      rw [List.dropWhile_append, shape]
      rfl

private theorem takeWhile_append_of_mixed {first : List Char}
    (mixed : ¬ first.all frame.inner = true)
    (second : List Char) :
    (first ++ second).takeWhile frame.inner = first.takeWhile frame.inner := by
  rw [List.takeWhile_append, if_neg]
  intro whole
  have same := (List.takeWhile_prefix frame.inner (l := first)).eq_of_length whole
  exact mixed (List.all_eq_true.mpr (List.takeWhile_eq_self_iff.mp same))

private theorem leavesOpen_of_inner {text : List Char} (inner : text.all frame.inner = true) :
    frame.leavesOpen text = false := by
  cases text with
  | nil => rfl
  | cons c rest =>
      obtain ⟨here, later⟩ := Bool.and_eq_true_iff.mp inner
      rw [leavesOpen, if_pos later]
      refine Bool.eq_false_iff.mpr fun opens => ?_
      rw [frame.starts c opens] at here
      cases here

/-- Whether joined texts leave a frame open is told by the last that is more than part of a word. -/
theorem leavesOpen_append (first second : List Char) :
    frame.leavesOpen (first ++ second) =
      if second.all frame.inner then frame.leavesOpen first else frame.leavesOpen second := by
  induction first with
  | nil =>
      split
      · next inner => exact leavesOpen_of_inner inner
      · rfl
  | cons c first ih =>
      rw [List.cons_append, leavesOpen, leavesOpen, List.all_append, ih]
      by_cases inner : second.all frame.inner = true
      · simp only [inner, Bool.and_true, ↓reduceIte]
      · simp only [inner, Bool.and_false, Bool.false_eq_true, ↓reduceIte]

/-- **A framed word of two joined texts lies in one of them**, unless the first leaves a frame open
that the second closes. -/
theorem mem_words_append {word first second : List Char}
    (apart : frame.leavesOpen first = false ∨ frame.closesFirst second = false)
    (found : word ∈ frame.words (first ++ second)) :
    word ∈ frame.words first ∨ word ∈ frame.words second := by
  induction first with
  | nil => exact .inr found
  | cons c first ih =>
      have tail : frame.leavesOpen first = false ∨ frame.closesFirst second = false := by
        refine apart.imp_left fun settled => ?_
        have parts : frame.leavesOpen ([c] ++ first) = _ := leavesOpen_append [c] first
        rw [List.singleton_append, settled] at parts
        by_cases inner : first.all frame.inner = true
        · exact leavesOpen_of_inner inner
        · rw [if_neg inner] at parts
          exact parts.symm
      by_cases opens : frame.opens c = true
      · rw [List.cons_append, words_cons_of_opens opens, List.mem_append] at found
        rcases found with here | later
        · by_cases inner : first.all frame.inner = true
          · have leaves : frame.leavesOpen (c :: first) = true := by
              rw [leavesOpen, if_pos inner, opens]
            have unclosed := apart.resolve_left fun settled => by
              rw [leaves] at settled
              cases settled
            rw [closesFirst_append, if_pos inner, unclosed] at here
            cases here
          · rw [closesFirst_append, if_neg inner, takeWhile_append_of_mixed inner] at here
            rw [words_cons_of_opens opens]
            exact .inl (List.mem_append_left _ here)
        · exact (ih tail later).imp_left mem_words_cons_of_mem
      · rw [List.cons_append, words_cons_of_not_opens (Bool.eq_false_iff.mpr opens)] at found
        exact (ih tail found).imp_left mem_words_cons_of_mem

/-- A framed word stands in the text. -/
theorem infix_of_mem_words {word text : List Char} (found : word ∈ frame.words text) :
    word <:+: text := by
  induction text with
  | nil => cases found
  | cons c text ih =>
      by_cases opens : frame.opens c = true
      · rw [words_cons_of_opens opens, List.mem_append] at found
        rcases found with here | later
        · split at here
          · obtain rfl := List.mem_singleton.mp here
            exact (List.takeWhile_prefix _).isInfix.trans (List.suffix_cons c text).isInfix
          · cases here
        · exact (ih later).trans (List.suffix_cons c text).isInfix
      · rw [words_cons_of_not_opens (Bool.eq_false_iff.mpr opens)] at found
        exact (ih found).trans (List.suffix_cons c text).isInfix

/-! ### Texts in parts -/

/-- A text all of whose framed words are allowed. -/
def Fits (frame : Frame) (allowed : List Char → Prop) (text : String) : Prop :=
  ∀ word ∈ frame.words text.toList, allowed word

/-- A text that fits and closes no frame first. It can follow any text. -/
structure Quiet (frame : Frame) (allowed : List Char → Prop) (text : String) : Prop where
  fits : frame.Fits allowed text
  unclosed : frame.closesFirst text.toList = false

/-- A text that fits and leaves no frame open. -/
structure Settled (frame : Frame) (allowed : List Char → Prop) (text : String) : Prop where
  fits : frame.Fits allowed text
  shut : frame.leavesOpen text.toList = false

/-- A text that is no part of a word and closes no frame first. -/
structure Firm (frame : Frame) (text : String) : Prop where
  unclosed : frame.closesFirst text.toList = false
  mixed : ¬ text.toList.all frame.inner = true

/-- A settled text that is firm as well. -/
structure Anchored (frame : Frame) (allowed : List Char → Prop) (text : String) : Prop
    extends frame.Settled allowed text, frame.Firm text

/-- A text without the characters around words. -/
def Skips (frame : Frame) (text : String) : Prop :=
  ∀ c ∈ text.toList, frame.opens c = false ∧ frame.closes c = false

section Closers

variable {text : List Char} (unclosed : ∀ c ∈ text, frame.closes c = false)
include unclosed

/-- A text that closes no frame closes none first. -/
theorem closesFirst_eq_false : frame.closesFirst text = false := by
  unfold closesFirst
  cases first : text.dropWhile frame.inner with
  | nil => rfl
  | cons c rest =>
      have member : c ∈ text := (List.dropWhile_sublist _).subset (first ▸ List.mem_cons_self)
      exact unclosed c member

private theorem words_eq_nil : frame.words text = [] := by
  induction text with
  | nil => rfl
  | cons c text ih =>
      obtain ⟨-, later⟩ := List.forall_mem_cons.mp unclosed
      by_cases opens : frame.opens c = true
      · rw [words_cons_of_opens opens, closesFirst_eq_false later, ih later]
        rfl
      · rw [words_cons_of_not_opens (Bool.eq_false_iff.mpr opens), ih later]

end Closers

private theorem Skips.closesFirst {text : String} (skips : frame.Skips text) :
    frame.closesFirst text.toList = false :=
  closesFirst_eq_false fun c member => (skips c member).2

private theorem leavesOpen_eq_false {text : List Char} (plain : ∀ c ∈ text, frame.opens c = false) :
    frame.leavesOpen text = false := by
  induction text with
  | nil => rfl
  | cons c text ih =>
      obtain ⟨here, later⟩ := List.forall_mem_cons.mp plain
      rw [leavesOpen]
      split
      · exact here
      · exact ih later

variable {allowed : List Char → Prop} {first second : String}

/-- A text without the characters that open frames is settled. -/
theorem settled_of_forall {text : String} (plain : ∀ c ∈ text.toList, frame.opens c = false) :
    frame.Settled allowed text := by
  refine ⟨fun word found => ?_, leavesOpen_eq_false plain⟩
  rw [← List.append_nil text.toList, words_append_of_not_opens plain] at found
  cases found

/-- That fixed characters open no frame is checked by evaluation. -/
theorem settled_ofList {chars : List Char} (plain : chars.all (!frame.opens ·) = true) :
    frame.Settled allowed (String.ofList chars) := by
  refine settled_of_forall fun c member => ?_
  rw [String.toList_ofList] at member
  exact (Bool.not_eq_true' _).mp (List.all_eq_true.mp plain c member)

/-- A text without the characters around words is settled. -/
theorem Skips.settled {text : String} (skips : frame.Skips text) : frame.Settled allowed text :=
  settled_of_forall fun c member => (skips c member).1

private theorem Fits.append_of (left : frame.Fits allowed first) (right : frame.Fits allowed second)
    (apart : frame.leavesOpen first.toList = false ∨ frame.closesFirst second.toList = false) :
    frame.Fits allowed (first ++ second) := by
  intro word found
  rw [String.toList_append] at found
  exact (mem_words_append apart found).elim (left word) (right word)

/-- A text that closes no frame first can follow any text. -/
theorem Fits.append (left : frame.Fits allowed first) (right : frame.Fits allowed second)
    (unclosed : frame.closesFirst second.toList = false) : frame.Fits allowed (first ++ second) :=
  left.append_of right (.inr unclosed)

/-- Quiet texts make a quiet text. -/
theorem Quiet.append (left : frame.Quiet allowed first) (right : frame.Quiet allowed second) :
    frame.Quiet allowed (first ++ second) := by
  refine ⟨left.fits.append right.fits right.unclosed, ?_⟩
  rw [String.toList_append, closesFirst_append]
  split
  · exact right.unclosed
  · exact left.unclosed

/-- A text without the characters that close frames is quiet. -/
theorem quiet_of_forall {text : String} (unclosed : ∀ c ∈ text.toList, frame.closes c = false) :
    frame.Quiet allowed text := by
  refine ⟨fun word found => ?_, closesFirst_eq_false unclosed⟩
  rw [words_eq_nil unclosed] at found
  cases found

/-- That fixed characters close no frame is checked by evaluation. -/
theorem quiet_ofList {chars : List Char} (unclosed : chars.all (!frame.closes ·) = true) :
    frame.Quiet allowed (String.ofList chars) := by
  refine quiet_of_forall fun c member => ?_
  rw [String.toList_ofList] at member
  exact (Bool.not_eq_true' _).mp (List.all_eq_true.mp unclosed c member)

/-- A name can follow any text. -/
theorem Fits.name (left : frame.Fits allowed first) (skips : frame.Skips second) :
    frame.Fits allowed (first ++ second) :=
  left.append skips.settled.fits skips.closesFirst

/-- Any text can follow a settled one. -/
theorem Settled.then (left : frame.Settled allowed first) (right : frame.Fits allowed second) :
    frame.Fits allowed (first ++ second) :=
  left.fits.append_of right (.inl left.shut)

/-- Settled texts make a settled text. -/
theorem Settled.append (left : frame.Settled allowed first)
    (right : frame.Settled allowed second) : frame.Settled allowed (first ++ second) := by
  refine ⟨left.then right.fits, ?_⟩
  rw [String.toList_append, leavesOpen_append]
  split
  · exact left.shut
  · exact right.shut

/-- A name behind a settled text leaves it settled. -/
theorem Settled.name (left : frame.Settled allowed first) (skips : frame.Skips second) :
    frame.Settled allowed (first ++ second) :=
  left.append skips.settled

/-- Behind an anchored text, what was open before it does not matter. -/
theorem Fits.anchor (left : frame.Fits allowed first) (right : frame.Anchored allowed second) :
    frame.Settled allowed (first ++ second) := by
  refine ⟨left.append right.fits right.unclosed, ?_⟩
  rw [String.toList_append, leavesOpen_append, if_neg right.mixed]
  exact right.shut

/-- What a text starts with makes it firm. -/
theorem Firm.append (left : frame.Firm first) (second : String) : frame.Firm (first ++ second) := by
  constructor
  · rw [String.toList_append, closesFirst_append, if_neg left.mixed]
    exact left.unclosed
  · rw [String.toList_append, List.all_append, Bool.and_eq_true]
    exact fun inner => left.mixed inner.1

/-- A settled text behind an anchored one leaves it anchored. -/
theorem Anchored.append (left : frame.Anchored allowed first)
    (right : frame.Settled allowed second) : frame.Anchored allowed (first ++ second) :=
  ⟨left.toSettled.append right, left.toFirm.append second⟩

/-- A name in front of an anchored text. -/
theorem Skips.anchor (skips : frame.Skips first) (right : frame.Anchored allowed second) :
    frame.Anchored allowed (first ++ second) := by
  refine ⟨skips.settled.append right.toSettled, ⟨?_, ?_⟩⟩
  · rw [String.toList_append, closesFirst_append]
    split
    · exact right.unclosed
    · exact skips.closesFirst
  · rw [String.toList_append, List.all_append, Bool.and_eq_true]
    exact fun inner => right.mixed inner.2

end Frame

end Wireform.Backend
