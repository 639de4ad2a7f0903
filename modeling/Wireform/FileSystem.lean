import Wireform.Text.Quoted

/-!
# File systems

Files and directories belong to the system on which a program runs. A file system is known to the
program by its calls: a text is read, a status is asked for, a directory is made, a file is opened
and emptied or made, an open file is filled. Any of them can fail, and nothing is said here about
what is behind them.

A path is a raw text. Where a path is taken apart, that is done by its slashes alone.

- `FileSystem` are the calls
- `FileSystem.makeDirectories` makes a directory with those it is in
- `Path.join` and `Path.baseName` put paths together and take them apart
-/

namespace Wireform

open Text (Raw RawChar)

/-- The time of the last change of an entry. -/
inductive Stamp where
  | time (value : Int)
  /-- A moment after all given times. -/
  | latest
  deriving DecidableEq, Repr

/-- Whether a change came after another. Two moments without a time are not told apart. -/
def Stamp.isAfter : Stamp → Stamp → Bool
  | time a, time b => b < a
  | latest, time _ => true
  | _, latest => false

/-- Faults that come from outside, from the system or from a library. -/
class Foreign (Fault : Type) where
  /-- Whether a fault is of the kind that is reckoned with. -/
  isExpected : Fault → Bool
  /-- The wording of a fault. -/
  wording : Fault → String

/-- What is told about the entry at a path. -/
structure Status where
  isDirectory : Bool
  stamp : Stamp
  deriving DecidableEq, Repr

/-- The calls of a file system: its trees of files and directories, its faults, and the nodes by
which open files are known. -/
structure FileSystem (Tree Fault Node : Type) where
  /-- The text of the file at a path, with any line break as a line feed. -/
  read : Raw → Tree → Except Fault String
  /-- The status of what a path leads to. -/
  status : Raw → Tree → Except Fault Status
  /-- Makes one directory. -/
  makeDirectory : Raw → EStateM Fault Tree Unit
  /-- Opens the file at a path to be written, emptied or made. -/
  openFile : Raw → EStateM Fault Tree Node
  /-- Sets the text of a file that was opened, and closes it. -/
  write : Node → String → EStateM Fault Tree Unit
  /-- Whether a fault tells that something is there already. -/
  isOccupied : Fault → Bool

/-! ### Paths -/

namespace Path

/-- The character between the names of a path. -/
def slash : RawChar := .char '/'

/-- A path without the name at its end and without the slashes before that name, and the name. -/
def parentAndName (path : Raw) : Raw × Raw :=
  let fromEnd := path.reverse
  let name := (fromEnd.takeWhile (· ≠ slash)).reverse
  let parent := fromEnd.dropWhile (· ≠ slash)
  if parent.all (· = slash) then (parent, name)
  else ((parent.dropWhile (· = slash)).reverse, name)

/-- The name at the end of a path. -/
def baseName (path : Raw) : Raw := (parentAndName path).2

/-- A path without its last name, and that name. A slash at the end is passed over. -/
def parentAndLastName (path : Raw) : Raw × Raw :=
  match parentAndName path with
  | (parent, []) => parentAndName parent
  | parts => parts

/-- The path of a name in a directory. -/
def join (directory : Raw) (name : String) : Raw :=
  if directory.isEmpty || directory.getLast? = some slash then directory ++ Raw.ofString name
  else directory ++ slash :: Raw.ofString name

end Path

/-! ### Directories -/

namespace FileSystem

variable {Tree Fault Node : Type} (files : FileSystem Tree Fault Node)

/-- Whether a path leads to something. -/
def isPresent (path : Raw) (tree : Tree) : Bool := (files.status path tree).isOk

/-- Whether a path leads to a directory. -/
def isDirectory (path : Raw) (tree : Tree) : Bool :=
  (files.status path tree).toOption.any Status.isDirectory

variable [Foreign Fault]

/-- Makes a directory unless it is there. -/
def ensureDirectory (path : Raw) : EStateM Fault Tree Unit := fun tree =>
  match files.makeDirectory path tree with
  | .ok () after => .ok () after
  | .error fault after =>
      if Foreign.isExpected fault && files.isDirectory path after then .ok () after
      else .error fault after

/-- Makes a directory unless it is there, and before it those it is in. What was made before a fault
stays. The bound is on the number of names in the path. -/
def makeDirectoriesWithin : Nat → Raw → EStateM Fault Tree Unit
  | 0, path => files.ensureDirectory path
  | bound + 1, path => fun tree =>
      let (parent, name) := Path.parentAndLastName path
      if parent.isEmpty || name.isEmpty || files.isPresent parent tree then
        files.ensureDirectory path tree
      else
        let last : EStateM Fault Tree Unit :=
          if name = [.char '.'] then pure () else files.ensureDirectory path
        match makeDirectoriesWithin bound parent tree with
        | .ok () after => last after
        | .error fault after => if files.isOccupied fault then last after else .error fault after

/-- Makes a directory unless it is there, and before it those it is in. -/
def makeDirectories (path : Raw) : EStateM Fault Tree Unit :=
  files.makeDirectoriesWithin path.length path

end FileSystem

end Wireform
