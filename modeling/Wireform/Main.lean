import Wireform.Document.Yaml
import Wireform.FileTree.Access
import Wireform.Generator.Basic

/-!
# The program

The generator on the files of a disk.
-/

namespace Wireform

open Text (Raw)

/-- The cause that an error of the system stands for. -/
def causeOf : IO.Error → FileCause
  | .noFileOrDirectory _ _ _ => .missing
  | .alreadyExists _ _ _ => .occupied
  | .inappropriateType _ code _ => if code = 21 then .isDirectory else .notDirectory
  | error => .other (toString error)

/-- Why a run on a disk fails. -/
abbrev DiskFault := Generator.Fault FileFault Document.Fault

/-- An action on the file at a path, as a part of a run. -/
def onDisk {α : Type} (path : Raw) (action : String → IO α) : EIO DiskFault α :=
  (action path.shown).toEIO fun error => .file ⟨causeOf error, path.shown⟩

/-- The stamp of what is at a path. -/
def diskStamp (path : String) : IO Stamp := do
  let ⟨seconds, nanoseconds⟩ := (← (← IO.FS.realPath path).metadata).modified
  return .time (seconds * 1000000000 + nanoseconds.toNat)

/-- The files of a disk. -/
def diskFiles : Generator.Files FileFault Document.Fault (EIO DiskFault) IO.FS.Handle where
  read path := onDisk path fun name => do
    return String.ofList (FileTree.unifyBreaks (← IO.FS.readFile name).toList)
  isPresent path := onDisk path fun name => do
    try
      let _ ← diskStamp name
      return true
    catch _ => return false
  stamp path := onDisk path diskStamp
  makeDirectories path := onDisk path fun name => IO.FS.createDirAll name
  openFile path := onDisk path fun name => IO.FS.Handle.mk name .write
  fill handle text := onDisk [] fun _ => do
    handle.putStr text
    handle.flush
  say line := onDisk [] fun _ => IO.println line.shown
  fail := throw

end Wireform

/-- Follows a command line. -/
def main (words : List String) : IO UInt32 := do
  match Wireform.CommandLine.read (words.map Wireform.Text.Raw.ofString) with
  | .error fault =>
      IO.eprint fault.report
      return 2
  | .ok .help =>
      IO.print Wireform.CommandLine.help
      return 0
  | .ok (.run arguments) =>
      let run := Wireform.Generator.generate Wireform.Document.yaml Wireform.diskFiles arguments
      match ← run.toBaseIO with
      | .ok () => return 0
      | .error fault =>
          if fault.isReported then IO.println fault.report else IO.eprintln fault.message
          return 1
