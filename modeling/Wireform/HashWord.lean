/-!
# Hash words

Fingerprints are 64-bit words. A word takes in one value at a time: it is shifted up by a byte,
mixed with its own top bits, which come down with the sign, and the value is added as a signed
byte. A text goes in as its length in UTF-8 bytes followed by those bytes.

- `HashWord.fold` takes in one value, `foldText` a text, and `foldAll` a sequence of values
- `HashWord.rotate` turns a word left by one bit
- `textValues` lists the values that a text stands for
-/

namespace Wireform

/-- A 64-bit hash. -/
abbrev HashWord := BitVec 64

namespace HashWord

/-- The word congruent to an integer modulo 2 ^ 64. -/
def ofInt (value : Int) : HashWord := BitVec.ofInt 64 value

/-- Takes one value into a hash. Only the value's low eight bits count, as a signed byte. -/
def fold (word : HashWord) (value : Int) : HashWord :=
  ((word <<< 8) ^^^ word.sshiftRight 55) + (BitVec.ofInt 8 value).signExtend 64

/-- Takes a sequence of values into a hash, first to last. -/
def foldAll (word : HashWord) (values : List Int) : HashWord :=
  values.foldl fold word

/-- The values by which a text enters a hash: its length in bytes and its bytes. -/
def textValues (text : String) : List Int :=
  let bytes := text.toUTF8.toList
  (bytes.length : Int) :: bytes.map fun byte => (byte.toNat : Int)

/-- Takes a text into a hash. -/
def foldText (word : HashWord) (text : String) : HashWord :=
  foldAll word (textValues text)

/-- Turns a word left by one bit. -/
def rotate (word : HashWord) : HashWord := word.rotateLeft 1

@[simp] private theorem foldAll_nil (word : HashWord) : foldAll word [] = word := rfl

/-- Values are taken in from the first on. -/
@[simp] theorem foldAll_cons (word : HashWord) (value : Int) (values : List Int) :
    foldAll word (value :: values) = foldAll (fold word value) values := rfl

/-- Values taken in one after another can be taken in as one sequence. -/
theorem foldAll_append (word : HashWord) (first second : List Int) :
    foldAll word (first ++ second) = foldAll (foldAll word first) second := by
  simp [foldAll]

/-- Sequences that belong to the entries of a list are taken in entry by entry. -/
theorem foldAll_flatMap {Entry : Type} {values : Entry → List Int}
    {step : HashWord → Entry → HashWord}
    (each : ∀ word entry, foldAll word (values entry) = step word entry) (word : HashWord)
    (entries : List Entry) : foldAll word (entries.flatMap values) = entries.foldl step word := by
  induction entries generalizing word with
  | nil => rfl
  | cons first rest ih => rw [List.flatMap_cons, foldAll_append, each, ih, List.foldl_cons]

end HashWord

end Wireform
