import Mathlib.Data.List.Basic
import Wireform.Proofs.FileSystem.View

/-! # Calls that fail as expected

A raw text is clean if it is a text without a null character (`Wireform.Text.Raw.IsClean`). Of such
paths, joined and taken apart, come clean paths. Where the calls of a file system fail by faults
that are reckoned with, making a directory with those it is in does so too
(`Wireform.FileSystem.IsExpected.makeDirectories`).
-/

namespace Wireform

open Text (Raw RawChar)

variable {Tree System Node : Type} [Foreign System]

/-- A raw text is a text without a null character. -/
def Text.Raw.IsClean (raw : Raw) : Prop := ∀ c ∈ raw, ∃ char ≠ Char.ofNat 0, c = .char char

/-- The calls of a file system fail by faults that are reckoned with, where a path is clean. A
failed read is not among them, since a file may hold no text. -/
structure FileSystem.IsExpected (system : FileSystem Tree System Node) : Prop where
  status : ∀ {path : Raw}, path.IsClean → ∀ {tree fault},
    system.status path tree = .error fault → Foreign.isExpected fault = true
  makeDirectory : ∀ {path : Raw}, path.IsClean → ∀ {tree fault after},
    system.makeDirectory path tree = .error fault after → Foreign.isExpected fault = true
  openFile : ∀ {path : Raw}, path.IsClean → ∀ {tree fault after},
    system.openFile path tree = .error fault after → Foreign.isExpected fault = true
  write : ∀ {node text tree fault after}, system.write node text tree = .error fault after →
    Foreign.isExpected fault = true

/-! ### Clean texts -/

namespace Text.Raw

variable {raw : Raw}

/-- Clean texts make a clean text. -/
theorem IsClean.append {other : Raw} (first : raw.IsClean) (second : other.IsClean) :
    IsClean (raw ++ other) :=
  fun c member => (List.mem_append.mp member).elim (first c) (second c)

/-- Characters of a clean text are clean. -/
theorem IsClean.subset {part : Raw} (clean : raw.IsClean) (within : part ⊆ raw) :
    part.IsClean :=
  fun c member => clean c (within member)

/-- A string is clean unless it has the character that ends texts. -/
theorem isClean_ofString (text : String) (unended : Char.ofNat 0 ∉ text.toList) :
    (ofString text).IsClean := by
  intro c member
  obtain ⟨char, present, rfl⟩ := List.mem_map.mp member
  exact ⟨char, fun same => unended (same ▸ present), rfl⟩

/-- A clean text can be shown. -/
theorem IsClean.exists_text (clean : raw.IsClean) : ∃ text, raw.text? = some text := by
  suffices spelt : ∃ chars : List Char, raw = chars.map .char by
    obtain ⟨chars, rfl⟩ := spelt
    exact ⟨String.ofList chars, by rw [← text?_ofString, ofString, String.toList_ofList]⟩
  induction raw with
  | nil => exact ⟨[], rfl⟩
  | cons c raw ih =>
      obtain ⟨first, -, rfl⟩ := clean c List.mem_cons_self
      obtain ⟨chars, rfl⟩ := ih fun later member => clean later (List.mem_cons_of_mem _ member)
      exact ⟨first :: chars, rfl⟩

/-- Clean parts make a clean text with a clean separator. -/
theorem IsClean.intercalate (separator : String) (clean : (ofString separator).IsClean)
    {parts : List Raw} (each : ∀ part ∈ parts, part.IsClean) :
    (Raw.intercalate separator parts).IsClean := by
  intro c member
  unfold Raw.intercalate at member
  obtain ⟨part, listed, inside⟩ := List.mem_flatten.mp member
  have known : part = ofString separator ∨ part ∈ parts := by
    clear member inside each
    induction parts with
    | nil => cases listed
    | cons first rest ih =>
        cases rest with
        | nil => exact .inr listed
        | cons second rest =>
            rcases List.mem_cons.mp listed with rfl | later
            · exact .inr List.mem_cons_self
            · rcases List.mem_cons.mp later with same | later
              · exact .inl same
              · exact (ih later).imp_right (List.mem_cons_of_mem first)
  rcases known with rfl | known
  · exact clean c inside
  · exact each part known c inside

end Text.Raw

/-! ### Clean paths -/

namespace Path

/-- A plain name behind a clean path makes a clean path. -/
theorem isClean_join {directory : Raw} (clean : directory.IsClean) {name : String}
    (plain : IsPlain name) : (join directory name).IsClean := by
  have spelt := Text.Raw.isClean_ofString name plain.unended
  unfold join
  split
  · exact clean.append spelt
  · refine clean.append fun c member => ?_
    rcases List.mem_cons.mp member with rfl | later
    · exact ⟨'/', by decide, rfl⟩
    · exact spelt c later

/-- The parent of a path and its last name have characters of the path only. -/
theorem parentAndName_subset (path : Raw) :
    (parentAndName path).1 ⊆ path ∧ (parentAndName path).2 ⊆ path := by
  have kept : path.reverse.dropWhile (· ≠ slash) ⊆ path := fun c member =>
    List.mem_reverse.mp ((List.dropWhile_sublist _).subset member)
  have taken : (path.reverse.takeWhile (· ≠ slash)).reverse ⊆ path := fun c member =>
    List.mem_reverse.mp ((List.takeWhile_sublist _).subset (List.mem_reverse.mp member))
  unfold parentAndName
  simp only
  split
  · exact ⟨kept, taken⟩
  · exact ⟨fun c member => kept ((List.dropWhile_sublist _).subset (List.mem_reverse.mp member)),
      taken⟩

private theorem parentAndLastName_subset (path : Raw) : (parentAndLastName path).1 ⊆ path := by
  unfold parentAndLastName
  split
  · next parent same =>
      have once := (parentAndName_subset path).1
      rw [same] at once
      exact List.Subset.trans (parentAndName_subset parent).1 once
  · exact (parentAndName_subset path).1

end Path

/-! ### Calls -/

namespace FileSystem

variable {system : FileSystem Tree System Node} {path : Raw} {tree after : Tree} {fault : System}

private theorem IsExpected.ensureDirectory (expected : system.IsExpected) (clean : path.IsClean)
    (failed : system.ensureDirectory path tree = .error fault after) :
    Foreign.isExpected fault = true := by
  unfold FileSystem.ensureDirectory at failed
  split at failed
  · cases failed
  · next unmade =>
      split at failed
      · cases failed
      · obtain ⟨rfl, rfl⟩ := EStateM.Result.error.inj failed
        exact expected.makeDirectory clean unmade

private theorem IsExpected.makeDirectoriesWithin (expected : system.IsExpected) {bound : Nat}
    (clean : path.IsClean)
    (failed : system.makeDirectoriesWithin bound path tree = .error fault after) :
    Foreign.isExpected fault = true := by
  induction bound generalizing path tree fault after with
  | zero => exact expected.ensureDirectory clean failed
  | succ bound ih =>
      unfold FileSystem.makeDirectoriesWithin at failed
      simp only at failed
      have last {tree after : Tree} {name : Raw} (failed :
          (if name = [.char '.'] then (pure () : EStateM System Tree Unit)
            else system.ensureDirectory path) tree = .error fault after) :
          Foreign.isExpected fault = true := by
        split at failed
        · cases failed
        · exact expected.ensureDirectory clean failed
      split at failed
      · exact expected.ensureDirectory clean failed
      · split at failed
        · exact last failed
        · next stopped =>
            split at failed
            · exact last failed
            · obtain ⟨rfl, rfl⟩ := EStateM.Result.error.inj failed
              exact ih (clean.subset (Path.parentAndLastName_subset path)) stopped

/-- Making a directory with those it is in fails as making one does. -/
theorem IsExpected.makeDirectories (expected : system.IsExpected) (clean : path.IsClean)
    (failed : system.makeDirectories path tree = .error fault after) :
    Foreign.isExpected fault = true :=
  expected.makeDirectoriesWithin clean failed

end FileSystem

end Wireform
