import Wireform.Proofs.FileSystem.View

/-! # Making directories

Where the calls of a file system do what they do in POSIX, making a directory with those it is in
changes no file and loses no path, whether it comes to an end or not
(`Wireform.FileSystem.View.IsLawful.keeps_makeDirectories`). A directory that is there is left as it
is, and nothing is made around it (`Wireform.FileSystem.View.IsLawful.makeDirectories_of_there`).
-/

namespace Wireform.FileSystem

open Text (Raw)

variable {Tree Fault Node Contents : Type} [Foreign Fault] {view : View Tree Node Contents}
  {system : FileSystem Tree Fault Node} {path : Raw} {tree before after : Tree} {fault : Fault}

/-- The tree that a change leaves, whether it fails or not. -/
def treeAfter {α : Type} : EStateM.Result Fault Tree α → Tree
  | .ok _ tree => tree
  | .error _ tree => tree

/-- All paths and files are as they were, and there may be more paths. -/
structure View.Keeps (view : View Tree Node Contents) (before after : Tree) : Prop where
  paths : view.KeepsPaths before after
  files : ∀ node, view.file? node after = view.file? node before

omit [Foreign Fault] in
private theorem View.Keeps.refl (tree : Tree) :
    view.Keeps tree tree := ⟨fun _ _ => id, fun _ => rfl⟩

omit [Foreign Fault] in
private theorem View.Keeps.trans {between : Tree} (first : view.Keeps before between)
    (second : view.Keeps between after) : view.Keeps before after where
  paths path node led := second.paths path node (first.paths path node led)
  files node := (second.files node).trans (first.files node)

namespace View.IsLawful

variable (lawful : view.IsLawful system)
include lawful

private theorem keeps_ensureDirectory (path : Raw) (tree : Tree) :
    view.Keeps tree (treeAfter (system.ensureDirectory path tree)) := by
  unfold ensureDirectory
  split
  · next made =>
      obtain ⟨-, paths, files⟩ := lawful.makeDirectory_ok made
      exact ⟨paths, files⟩
  · next failed =>
      obtain rfl := lawful.makeDirectory_error failed
      split <;> exact .refl _

private theorem keeps_makeDirectoriesWithin (bound : Nat) (path : Raw) (tree : Tree) :
    view.Keeps tree (treeAfter (system.makeDirectoriesWithin bound path tree)) := by
  induction bound generalizing path tree with
  | zero => exact lawful.keeps_ensureDirectory path tree
  | succ bound ih =>
      unfold makeDirectoriesWithin
      simp only
      have last (name : Raw) (tree : Tree) : view.Keeps tree (treeAfter
          ((if name = [.char '.'] then (pure () : EStateM Fault Tree Unit)
            else system.ensureDirectory path) tree)) := by
        split
        · exact .refl tree
        · exact lawful.keeps_ensureDirectory path tree
      split
      · exact lawful.keeps_ensureDirectory path tree
      · have inner := ih (Path.parentAndLastName path).1 tree
        split
        · next made =>
            rw [made] at inner
            exact inner.trans (last _ _)
        · next failed =>
            rw [failed] at inner
            split
            · exact inner.trans (last _ _)
            · exact inner

/-- **Making directories changes no file and loses no path.** -/
theorem keeps_makeDirectories (path : Raw) (tree : Tree) :
    view.Keeps tree (treeAfter (system.makeDirectories path tree)) :=
  lawful.keeps_makeDirectoriesWithin _ path tree

private theorem ensureDirectory_of_there (there : system.isDirectory path tree = true) :
    treeAfter (system.ensureDirectory path tree) = tree := by
  unfold ensureDirectory
  split
  · next made => exact absurd there (lawful.makeDirectory_ok made).1
  · next failed =>
      obtain rfl := lawful.makeDirectory_error failed
      split <;> rfl

/-- **A directory that is there is left as it is.** -/
theorem makeDirectories_of_there (there : system.isDirectory path tree = true) :
    treeAfter (system.makeDirectories path tree) = tree := by
  unfold makeDirectories
  cases path.length with
  | zero => exact lawful.ensureDirectory_of_there there
  | succ bound =>
      unfold makeDirectoriesWithin
      simp only
      split
      · exact lawful.ensureDirectory_of_there there
      · next missing =>
          simp only [Bool.or_eq_true, List.isEmpty_iff, not_or] at missing
          exact absurd (lawful.parent there rfl missing.1.1 missing.1.2) missing.2

end View.IsLawful

end Wireform.FileSystem
