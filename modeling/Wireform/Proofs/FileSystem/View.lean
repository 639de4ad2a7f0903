import Wireform.FileSystem

/-! # What the calls of a file system do

A file system is given by its calls alone, and what is behind them is seen through a view of its
trees (`Wireform.FileSystem.View`): which file or directory a path leads to, which names are taken,
and what a file holds. Two paths may lead to one file, by links of either kind, and a path may lead
nowhere although its name is taken, by a symbolic link.

The laws of the calls (`Wireform.FileSystem.View.IsLawful`) are those of open, write, mkdir and stat
in POSIX: a call that fails to open or to make something leaves all as it was, a call that succeeds
changes one file or makes one name, and everything else is kept. Writing may fail at any time, after
a part of a text is there. Nothing is said about rights, sizes or the room that is left.

Whether a call succeeds is a different matter. Where that is decided by names and rights alone, and
not by what is in the files, the same can be written to trees that differ in the contents of files
only (`Wireform.FileSystem.View.IsRoomy`). On a disk that is full it is not.
-/

namespace Wireform

open Text (Raw)

/-- A name of a file in a directory. -/
structure Path.IsPlain (name : String) : Prop where
  unbroken : '/' ∉ name.toList
  unended : Char.ofNat 0 ∉ name.toList
  nonempty : name ≠ ""
  notHere : name ≠ "."
  notBack : name ≠ ".."

namespace FileSystem

variable {Tree Fault Node Contents : Type}

/-- What can be seen of the trees of a file system. -/
structure View (Tree Node Contents : Type) where
  /-- The file or directory that a path leads to, through all links. -/
  leadsTo : Raw → Tree → Option Node
  /-- Whether the name at the end of a path is taken, be it by a link that leads nowhere. -/
  IsTaken : Raw → Tree → Prop
  /-- The contents and the stamp of a file. -/
  file? : Node → Tree → Option (Contents × Stamp)
  /-- The text that is read where a file has some contents. -/
  textOf : Contents → String
  /-- The contents of a file after a text was written to it. -/
  holding : Node → String → Contents

namespace View

variable (view : View Tree Node Contents) (system : FileSystem Tree Fault Node)

/-- The contents and the stamp of the file that a path leads to. -/
def fileAt? (path : Raw) (tree : Tree) : Option (Contents × Stamp) :=
  (view.leadsTo path tree).bind (view.file? · tree)

/-- A path leads where it led, if it led somewhere. -/
def KeepsPaths (before after : Tree) : Prop :=
  ∀ path node, view.leadsTo path before = some node → view.leadsTo path after = some node

/-- All files but one are as they were. -/
def KeepsOthers (node : Node) (before after : Tree) : Prop :=
  ∀ other, other ≠ node → view.file? other after = view.file? other before

/-- A file was opened by a path: it was there, or it is new and has the last name of the path. -/
structure Opens (path : Raw) (node : Node) (before after : Tree) : Prop where
  leadsTo : view.leadsTo path after = some node
  isFile : (view.file? node after).isSome
  others : view.KeepsOthers node before after
  paths : view.KeepsPaths before after
  directories : ∀ path, system.isDirectory path before → system.isDirectory path after
  found : ∀ led, view.leadsTo path before = some led → led = node ∧ (view.file? node before).isSome
  fresh : view.leadsTo path before = none → view.file? node before = none
  /-- What a path leads to is the file that was opened, or it was led to before. -/
  known : ∀ path other, view.leadsTo path after = some other → other ≠ node →
    view.leadsTo path before = some other
  /-- No other name beside the path is taken, unless the path is a link that led nowhere. -/
  names : ∀ directory name other, path = Path.join directory name → Path.IsPlain name →
    Path.IsPlain other → other ≠ name →
      (view.IsTaken path before → view.leadsTo path before ≠ none) →
    view.IsTaken (Path.join directory other) after → view.IsTaken (Path.join directory other) before

/-- A file that was opened got other contents. -/
structure Rewrites (node : Node) (before after : Tree) : Prop where
  isFile : (view.file? node after).isSome
  others : view.KeepsOthers node before after
  leadsTo : ∀ path, view.leadsTo path after = view.leadsTo path before
  isTaken : ∀ path, view.IsTaken path after ↔ view.IsTaken path before
  directories : ∀ path, system.isDirectory path before → system.isDirectory path after

/-- The calls of a file system do what they do in POSIX. -/
structure IsLawful : Prop where
  /-- What is read is the text of a file. -/
  read_ok : ∀ {path tree text}, system.read path tree = .ok text →
    ∃ contents stamp, view.fileAt? path tree = some (contents, stamp) ∧ view.textOf contents = text
  /-- What a path leads to has a status, and that of a file has its stamp. -/
  status_ok : ∀ {path tree node}, view.leadsTo path tree = some node →
    ∃ status, system.status path tree = .ok status ∧ ∀ contents stamp,
      view.file? node tree = some (contents, stamp) → status.stamp = stamp
  leadsTo_of_status : ∀ {path tree status}, system.status path tree = .ok status →
    ∃ node, view.leadsTo path tree = some node
  isTaken_of_leadsTo : ∀ {path tree node}, view.leadsTo path tree = some node →
    view.IsTaken path tree
  openFile_ok : ∀ {path node before after}, system.openFile path before = .ok node after →
    view.Opens system path node before after
  openFile_error : ∀ {path fault before after}, system.openFile path before = .error fault after →
    after = before
  write_ok : ∀ {node text before after}, (view.file? node before).isSome →
    system.write node text before = .ok () after →
    view.Rewrites system node before after ∧
      ∃ stamp, view.file? node after = some (view.holding node text, stamp)
  write_error : ∀ {node text fault before after}, (view.file? node before).isSome →
    system.write node text before = .error fault after → view.Rewrites system node before after
  makeDirectory_ok : ∀ {path before after}, system.makeDirectory path before = .ok () after →
    ¬system.isDirectory path before ∧ view.KeepsPaths before after ∧
      ∀ node, view.file? node after = view.file? node before
  makeDirectory_error : ∀ {path fault before after},
    system.makeDirectory path before = .error fault after → after = before
  /-- A directory is in a directory. -/
  parent : ∀ {path parent name tree}, system.isDirectory path tree →
    Path.parentAndLastName path = (parent, name) → parent ≠ [] → name ≠ [] →
    system.isPresent parent tree

/-- Whether a file can be opened and a text be written to it is decided by what two trees that are
alike have in common, and that is not the contents of files. -/
structure IsRoomy (alike : Tree → Tree → Prop) : Prop where
  refl : ∀ tree, alike tree tree
  leadsTo : ∀ {first second}, alike first second → ∀ path,
    view.leadsTo path second = view.leadsTo path first
  /-- What can be written to a tree can be written to one that is alike. -/
  both : ∀ {path node text first opened written second}, alike first second →
    system.openFile path first = .ok node opened → system.write node text opened = .ok () written →
    ∃ secondOpened secondWritten, system.openFile path second = .ok node secondOpened ∧
      system.write node text secondOpened = .ok () secondWritten ∧ alike written secondWritten
  /-- A file that is there can be left as it is. -/
  left : ∀ {path node text first opened written second}, alike first second →
    system.openFile path first = .ok node opened → system.write node text opened = .ok () written →
    view.leadsTo path second = some node → alike written second

end View

end FileSystem

end Wireform
