import Wireform.FileSystem
import Wireform.Generator.Basic

/-!
# Runs on a file system

What a command line does to the files of a file system, with all that is shown and how it ends. What
was done before a fault stays done.

- `Generator.runOn` is the upshot of a command line
-/

namespace Wireform

open Text (Raw)

/-- How the program ends. -/
inductive Ending (Fault : Type) where
  | done
  | helped
  | misused (fault : UsageFault)
  | failed (fault : Fault)
  deriving DecidableEq, Repr

/-- The status with which the program ends, unless it ends by a fault that it does not report. -/
def Ending.status? {System Document : Type} [Foreign System] [Foreign Document] :
    Ending (Generator.Fault System Document) → Option Nat
  | done => some 0
  | helped => some 0
  | misused _ => some 2
  | failed fault => if fault.isReported then some 1 else none

namespace Generator

variable {Tree System Node Object Document : Type}

/-- All that comes of a command line. -/
structure Upshot (Tree System Node Document : Type) where
  tree : Tree
  ending : Ending (Fault System Document)
  output : String := ""
  errors : String := ""
  /-- The files that were opened to be written, in the order of their opening. -/
  opened : List Node := []
  /-- The file that was opened and not written in full, if there is one. -/
  unfinished : Option Node := none
  deriving DecidableEq, Repr

/-- A tree during a run, with what the run did. -/
structure Progress (Tree Node : Type) where
  tree : Tree
  output : String := ""
  opened : List Node := []
  unfinished : Option Node := none
  deriving DecidableEq, Repr

/-- A part of a run. -/
abbrev Running (Tree System Node Document : Type) :=
  EStateM (Fault System Document) (Progress Tree Node)

/-- Asks about the tree of a run. -/
def ask {α : Type} (question : Tree → Except System α) : Running Tree System Node Document α :=
  fun progress =>
    match question progress.tree with
    | .ok value => .ok value progress
    | .error fault => .error (.file fault) progress

/-- Changes the tree of a run. -/
def change {α : Type} (step : EStateM System Tree α) : Running Tree System Node Document α :=
  fun progress =>
    match step progress.tree with
    | .ok value tree => .ok value { progress with tree }
    | .error fault tree => .error (.file fault) { progress with tree }

/-- The files of a file system. -/
def filesOn [Foreign System] (system : FileSystem Tree System Node) :
    Files System Document (Running Tree System Node Document) Node where
  read path := ask (system.read path)
  isPresent path := ask fun tree => .ok (system.isPresent path tree)
  stamp path := ask fun tree => (system.status path tree).map Status.stamp
  makeDirectories path := change (system.makeDirectories path)
  openFile path := do
    let node ← change (system.openFile path)
    modify fun progress =>
      { progress with opened := progress.opened ++ [node], unfinished := some node }
    return node
  fill node text := do
    change (system.write node text)
    modify fun progress => { progress with unfinished := none }
  say line :=
    match line.text? with
    | some text => modify fun progress =>
      { progress with output := progress.output ++ text ++ "\n" }
    | none => throw (.encoding line)
  fail := throw

/-- The upshot of a command line on a file system, where options files are read by `yaml`. -/
def runOn [Foreign System] [Foreign Document] (system : FileSystem Tree System Node)
    (yaml : Yaml Object Document) (tree : Tree) (words : List Raw) :
    Upshot Tree System Node Document :=
  match CommandLine.read words with
  | .error fault => { tree, ending := .misused fault, errors := fault.report }
  | .ok .help => { tree, ending := .helped, output := CommandLine.help }
  | .ok (.run arguments) =>
      match generate yaml (filesOn system) arguments { tree } with
      | .ok () progress => { progress with ending := .done }
      | .error fault progress =>
          let report := if fault.isReported then fault.report ++ "\n" else ""
          { progress with ending := .failed fault, output := progress.output ++ report }

end Generator

end Wireform
