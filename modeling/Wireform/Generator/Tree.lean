import Wireform.Document.Yaml
import Wireform.FileTree.Access
import Wireform.Generator.Run

/-!
# Runs on a file tree

- `Generator.run` is the outcome of a command line
- `Outcome.stamped` is the tree after it, with the files that were opened stamped
-/

namespace Wireform

/-- Why a run on a file tree fails. -/
abbrev RunFault := Generator.Fault FileFault Document.Fault

/-- All that comes of a command line on a file tree. -/
abbrev Outcome := Generator.Upshot FileTree FileFault FileTree.Place Document.Fault

/-- The tree after a run, with a time for the files that were opened. -/
def Outcome.stamped (outcome : Outcome) (time : Int) : FileTree :=
  outcome.opened.foldl (fun tree place => tree.setStamp (.time time) place) outcome.tree

/-- The outcome of a command line on a file tree. -/
def Generator.run (tree : FileTree) (words : List String) : Outcome :=
  Generator.runOn FileTree.system Document.yaml tree (words.map Text.Raw.ofString)

end Wireform
