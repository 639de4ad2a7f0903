import Wireform.FileSystem
import Wireform.Pairs

/-!
# File trees

The files, directories and symbolic links below a root. Each file and directory has a stamp: the
time of its last change where a time was given, and a moment after all given times where none was.
Adding or removing an entry changes the directory it is in.

- `FileTree.find?` is the entry at a place, `FileTree.put` sets it
- `FileTree.find?_put` says that setting an entry changes no other
- `FileTree.listing` shows what is there
-/

namespace Wireform

namespace FileTree

/-- The names on the way from the root to an entry. -/
abbrev Place := List String

/-- A file with its text, a directory, or a symbolic link with the path that it holds. -/
inductive Entry where
  | file (text : String) (stamp : Stamp)
  | directory (stamp : Stamp)
  | link (target : String)
  deriving DecidableEq, Repr

namespace Entry

/-- The stamp of an entry. -/
def stamp : Entry → Stamp
  | file _ stamp => stamp
  | directory stamp => stamp
  | link _ => .latest

/-- The entry with another stamp. A link keeps none. -/
def withStamp (stamp : Stamp) : Entry → Entry
  | file text _ => file text stamp
  | directory _ => directory stamp
  | link target => link target

/-- Whether an entry is a directory. -/
def isDirectory : Entry → Bool
  | directory _ => true
  | _ => false

end Entry

end FileTree

/-- The entries below a root, in the order in which they were made. -/
structure FileTree where
  entries : List (FileTree.Place × FileTree.Entry) := []
  deriving DecidableEq, Repr

namespace FileTree

/-- The entry at a place. The root itself is always there. -/
def find? (tree : FileTree) (place : Place) : Option Entry :=
  if place = [] then some (.directory .latest) else tree.entries.lookup place

/-- Sets the entry at a place below the root. -/
def put (tree : FileTree) (place : Place) (entry : Entry) : FileTree :=
  ⟨Pairs.set tree.entries (place, entry)⟩

/-- Notes a change of a directory. -/
def noteChange (tree : FileTree) (place : Place) : FileTree :=
  if place = [] then tree else tree.put place (.directory .latest)

/-- Adds an entry at a place where none is. -/
def add (tree : FileTree) (place : Place) (entry : Entry) : FileTree :=
  (tree.noteChange place.dropLast).put place entry

/-- Removes the entry at a place, with all that is in it. -/
def remove (tree : FileTree) (place : Place) : FileTree :=
  FileTree.noteChange ⟨tree.entries.filter fun entry => !place.isPrefixOf entry.1⟩ place.dropLast

/-- Gives a stamp to the entry at a place. -/
def setStamp (tree : FileTree) (stamp : Stamp) (place : Place) : FileTree :=
  match tree.find? place with
  | none => tree
  | some entry => tree.put place (entry.withStamp stamp)

/-- The text and the stamp of the file at a place. -/
def file? (tree : FileTree) (place : Place) : Option (String × Stamp) :=
  match tree.find? place with
  | some (.file text stamp) => some (text, stamp)
  | _ => none

/-- The text of the file at a place. -/
def text? (tree : FileTree) (place : Place) : Option String := (tree.file? place).map Prod.fst

/-- A place as a path from the root. -/
def pathOf (place : Place) : String := String.intercalate "/" place

/-- The paths of all entries, those of directories with a slash at the end, in the order of their
code points. -/
def listing (tree : FileTree) : List String :=
  let shown := fun (place, entry) =>
    if Entry.isDirectory entry then pathOf place ++ "/" else pathOf place
  ((tree.entries.filter fun entry => entry.1 ≠ []).map shown).mergeSort fun a b => decide (a ≤ b)

/-- Setting an entry changes no other. -/
theorem find?_put {tree : FileTree} {place other : Place} {entry : Entry} (below : place ≠ []) :
    (tree.put place entry).find? other
      = if other = place then some entry else tree.find? other := by
  by_cases root : other = []
  · simp [find?, root, Ne.symm below]
  · simp [find?, put, root, Pairs.lookup_set]

end FileTree

end Wireform
