import Mathlib.Data.List.TakeWhile

/-! # Runs of characters

A run of characters of a class ends where the text behind it does not begin with another
(`Wireform.Text.Ends`). Such a run is taken whole (`Wireform.Text.takeWhile_of_ends`), and so is
what stands before the first occurrence of a character (`Wireform.Text.takeWhile_bne`).
-/

namespace Wireform.Text

/-- A text that does not begin with a character of a class. -/
def Ends (inside : Char → Bool) (text : List Char) : Prop :=
  ∀ c ∈ text.head?, inside c = false

variable {inside : Char → Bool} {run rest : List Char}

/-- Nothing goes on behind a text that is over. -/
theorem ends_nil : Ends inside [] := nofun

/-- A run ends before a character that is none of its own. -/
theorem ends_cons {c : Char} : Ends inside (c :: rest) ↔ inside c = false := by
  simp [Ends]

/-- A run that is dropped ends. -/
theorem ends_dropWhile (text : List Char) : Ends inside (text.dropWhile inside) := by
  intro c first
  have outside := List.head?_dropWhile_not inside text
  rw [Option.mem_def.mp first] at outside
  simpa using outside

/-- A run that ends is taken whole. -/
theorem takeWhile_of_ends (each : ∀ c ∈ run, inside c = true) (ends : Ends inside rest) :
    (run ++ rest).takeWhile inside = run ∧ (run ++ rest).dropWhile inside = rest := by
  rw [List.takeWhile_append_of_pos each, List.dropWhile_append_of_pos each]
  cases rest with
  | nil => simp
  | cons c rest =>
      rw [List.takeWhile_cons_of_neg (by simp [ends_cons.mp ends]),
        List.dropWhile_cons_of_neg (by simp [ends_cons.mp ends])]
      simp

/-- A run without a character goes on up to it. -/
theorem forall_bne {stop : Char} (absent : stop ∉ run) : ∀ c ∈ run, (c != stop) = true := by
  intro c inside
  rw [bne_iff_ne]
  rintro rfl
  exact absent inside

/-- A run is taken whole up to a character that is not in it. -/
theorem takeWhile_bne {stop : Char} (absent : stop ∉ run) (rest : List Char) :
    (run ++ stop :: rest).takeWhile (· != stop) = run ∧
      (run ++ stop :: rest).dropWhile (· != stop) = stop :: rest :=
  takeWhile_of_ends (forall_bne absent) (ends_cons.mpr (bne_self_eq_false stop))

/-- A run that ends still ends where text is put behind it that does not continue it. -/
theorem Ends.append {more : List Char} (ends : Ends inside rest) (stops : Ends inside more) :
    Ends inside (rest ++ more) := by
  cases rest with
  | nil => exact stops
  | cons c rest => exact ends_cons.mpr (ends_cons.mp ends)

end Wireform.Text
