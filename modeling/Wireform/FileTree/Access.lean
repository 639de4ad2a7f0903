import Wireform.FileTree.Basic

/-!
# Access to files by their paths

A path is followed name by name, from the root if it starts with a slash and from the working
directory if not. The working directory is the root here, so both are the same. `.` stays, `..` goes
back and stays at the root, and every name before the last must lead to a directory. A link is gone
through by the path that it holds.

Texts are read with any of the three line breaks as a line feed.

- `FileTree.resolve` is what a path leads to
- `FileTree.system` are the calls of a file tree
-/

namespace Wireform

open Text (Raw)

/-- What is wrong with a path. -/
inductive FileCause where
  | missing
  | occupied
  | notDirectory
  | isDirectory
  | nameTooLong
  | nullCharacter
  /-- Whatever else can go wrong, in words. -/
  | other (words : String)
  deriving DecidableEq, Repr

/-- A path that cannot be used, and why. -/
structure FileFault where
  cause : FileCause
  path : String
  deriving DecidableEq, Repr

/-- The wording of a fault. -/
def FileFault.message (fault : FileFault) : String :=
  match fault.cause with
  | .missing => "[Errno 2] No such file or directory: " ++ Text.quote fault.path
  | .occupied => "[Errno 17] File exists: " ++ Text.quote fault.path
  | .notDirectory => "[Errno 20] Not a directory: " ++ Text.quote fault.path
  | .isDirectory => "[Errno 21] Is a directory: " ++ Text.quote fault.path
  | .nameTooLong => "[Errno 36] File name too long: " ++ Text.quote fault.path
  | .nullCharacter => "embedded null byte"
  | .other words => words ++ ": " ++ Text.quote fault.path

instance : Foreign FileFault where
  isExpected fault := fault.cause ≠ .nullCharacter
  wording := FileFault.message

namespace FileTree

/-! ### Paths -/

/-- The most bytes that a name can have. -/
def nameLimit : Nat := 255

/-- The most bytes that a path can have. -/
def pathLimit : Nat := 4095

/-- The most links that a path can go through. -/
def linkLimit : Nat := 40

/-- The names of a path. A slash at the end is no name. -/
def namesOf (path : String) : List String :=
  ((path.toList.splitOn '/').filter (!·.isEmpty)).map String.ofList

/-- The steps along a path. A slash at its end asks for a directory. -/
def stepsOf (path : String) : List String :=
  if path.toList.getLast? = some '/' then namesOf path ++ ["."] else namesOf path

/-- What a path leads to. -/
inductive Target where
  | found (place : Place)
  /-- A place without an entry, in a directory that is there. -/
  | free (place : Place)
  deriving DecidableEq, Repr

/-- Follows steps from a directory up to the first link. From there `onLink` goes on, from the
directory in which the path of the link starts. -/
def walk (tree : FileTree) (onLink : Place → List String → Except FileCause Target)
    (here : Place) : List String → Except FileCause Target
  | [] => .ok (.found here)
  | name :: rest =>
      if name = "." then tree.walk onLink here rest
      else if name = ".." then tree.walk onLink here.dropLast rest
      else if nameLimit < name.utf8ByteSize then .error .nameTooLong
      else
        let place := here ++ [name]
        match tree.find? place with
        | some (.directory _) => tree.walk onLink place rest
        | some (.file _ _) => if rest.isEmpty then .ok (.found place) else .error .notDirectory
        | some (.link target) =>
            onLink (if target.toList.head? = some '/' then [] else here) (stepsOf target ++ rest)
        | none => if rest.isEmpty then .ok (.free place) else .error .missing

/-- Follows steps from a directory, through a number of links at most. -/
def follow (tree : FileTree) : Nat → Place → List String → Except FileCause Target
  | 0 => tree.walk fun _ _ => .error (.other "[Errno 40] Too many levels of symbolic links")
  | bound + 1 => tree.walk (tree.follow bound)

/-- What is wrong with a path by itself. -/
def pathFault? (path : String) : Option FileCause :=
  if path.toList.contains (Char.ofNat 0) then some .nullCharacter
  else if pathLimit < path.utf8ByteSize then some .nameTooLong
  else if path.isEmpty then some .missing
  else none

/-- What a path leads to. -/
def resolve (tree : FileTree) (path : String) : Except FileCause Target :=
  match pathFault? path with
  | some cause => .error cause
  | none => tree.follow linkLimit [] (stepsOf path)

/-- The place of the entry that a path leads to. -/
def foundPlace (tree : FileTree) (path : String) : Except FileFault Place :=
  match tree.resolve path with
  | .error cause => .error ⟨cause, path⟩
  | .ok (.free _) => .error ⟨.missing, path⟩
  | .ok (.found place) => .ok place

/-- The status of what a path leads to. -/
def status (tree : FileTree) (path : String) : Except FileFault Status := do
  let place ← tree.foundPlace path
  match tree.find? place with
  | some entry => return ⟨entry.isDirectory, entry.stamp⟩
  | none => throw ⟨.missing, path⟩

/-! ### Files -/

/-- A text with every line break as a line feed. -/
def unifyBreaks : List Char → List Char
  | [] => []
  | '\r' :: '\n' :: rest => '\n' :: unifyBreaks rest
  | '\r' :: rest => '\n' :: unifyBreaks rest
  | c :: rest => c :: unifyBreaks rest

/-- The text of the file at a path. -/
def read (tree : FileTree) (path : String) : Except FileFault String := do
  match tree.text? (← tree.foundPlace path) with
  | some text => return String.ofList (unifyBreaks text.toList)
  | none => throw ⟨.isDirectory, path⟩

/-- A change of a tree, which may fail after a part of it is done. -/
abbrev Change := EStateM FileFault FileTree

/-- The place of the file that is opened at a path, whether it is there or not. -/
def filePlace (tree : FileTree) (path : String) : Except FileFault Place :=
  match tree.resolve path with
  | .error cause => .error ⟨cause, path⟩
  | .ok (.free place) => .ok place
  | .ok (.found place) =>
      if (tree.text? place).isSome then .ok place else .error ⟨.isDirectory, path⟩

/-- Sets the text of the file at a place, or makes it. -/
def putText (tree : FileTree) (place : Place) (text : String) : FileTree :=
  if (tree.find? place).isSome then tree.put place (.file text .latest)
  else tree.add place (.file text .latest)

/-- Empties the file at a path, or makes it. The result is its place. -/
def openFile (path : String) : Change Place := fun tree =>
  match tree.filePlace path with
  | .error fault => .error fault tree
  | .ok place => .ok place (tree.putText place "")

/-! ### Directories -/

/-- Where a directory with a path would be. Its name must be free in a directory that is there. -/
def directoryPlace (tree : FileTree) (path : String) : Except FileCause Place :=
  match pathFault? path with
  | some cause => .error cause
  | none => do
      let names := namesOf path
      let name := names.getLastD "."
      match ← tree.follow linkLimit [] (names.dropLast ++ ["."]) with
      | .free _ => throw .missing
      | .found here =>
          if name = "." || name = ".." then throw .occupied
          else if nameLimit < name.utf8ByteSize then throw .nameTooLong
          else if (tree.find? (here ++ [name])).isSome then throw .occupied
          else return here ++ [name]

/-- Makes a directory. -/
def makeDirectory (path : String) : Change Unit := fun tree =>
  match tree.directoryPlace path with
  | .error cause => .error ⟨cause, path⟩ tree
  | .ok place => .ok () (tree.add place (.directory .latest))

/-! ### Calls -/

/-- A path as a text. Names are texts here. -/
def pathText (path : Raw) : Except FileFault String :=
  match path.text? with
  | some text => .ok text
  | none => .error
      ⟨.other "[Errno 84] Invalid or incomplete multibyte or wide character", path.shown⟩

/-- A change at a path that may not be a text. -/
def atRaw {α : Type} (path : Raw) (change : String → Change α) : Change α := fun tree =>
  match pathText path with
  | .error fault => .error fault tree
  | .ok text => change text tree

/-- The calls of a file tree. -/
def system : FileSystem FileTree FileFault Place where
  read path tree := do tree.read (← pathText path)
  status path tree := do tree.status (← pathText path)
  makeDirectory path := atRaw path makeDirectory
  openFile path := atRaw path openFile
  write place text := modify fun tree => tree.putText place text
  isOccupied fault := fault.cause = .occupied

/-- Makes a directory unless it is there, and before it those it is in. -/
def makeDirectories (path : String) : Change Unit := system.makeDirectories (Raw.ofString path)

end FileTree

end Wireform
