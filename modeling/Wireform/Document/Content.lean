import Wireform.Document.Atom
import Wireform.Document.Tag

/-!
# Contents of nodes

What a node is worth: an atom, a list, a mapping and so on. The tag decides, and a node that cannot
be what its tag says is at fault. The faults of a document are looked for level by level, from the
outermost node inwards and from left to right, so the one that is told is the first on the highest
level.

- `Document.atom?` is the value of a node that is no collection
- `Document.content` is what a node holds
- `Document.checked` is the content of the outermost node of a document without faults
- `Document.render` is the written form of a node
-/

namespace Wireform.Document

/-- What a node holds. The parts of a collection are positions of nodes. -/
inductive Content where
  | atom (value : Atom)
  | list (items : List Nat)
  /-- Pairs in the order in which they are written, without regard to their keys. -/
  | pairs (entries : List (Nat × Nat))
  | mapping (entries : List (Atom × Nat))
  | set (members : List Atom)

/-! ### Atoms -/

/-- The text of a node that stands for a scalar: its own, or that of the value of its key `=`. The
bound is on the number of mappings on the way. -/
def scalarText (document : Document) : Nat → Nat → Except Fault String
  | 0, _ => .error .malformed
  | bound + 1, position =>
      match document.node position with
      | .scalar _ text => .ok text
      | .sequence _ _ => .error .malformed
      | .mapping _ entries =>
          match entries.find? fun (key, _) => document.tag key = .value with
          | some (_, value) => document.scalarText bound value
          | none => .error .malformed

/-- The text of a node that stands for a scalar. -/
def text (document : Document) (position : Nat) : Except Fault String :=
  document.scalarText (document.nodes.size + 1) position

/-- Whether a tag is one of a collection. -/
def Tag.isCollection : Tag → Bool
  | sequence | mapping | orderedMapping | pairs | set => true
  | _ => false

/-- The value of a node, or nothing if its tag is one of a collection. -/
def atom? (document : Document) (position : Nat) : Except Fault (Option Atom) := do
  let node := document.node position
  if node.tag.isCollection then return none
  let scalar ← document.text position
  match node.tag, node with
  | .timestamp, .mapping _ _ => throw .dateOfMapping
  | tag, _ => return some (← Atom.ofScalar tag scalar)

/-! ### Collections -/

/-- The entries of a mapping with those that it merges in. Merged entries come first, and of several
mappings that are merged in as a list the last one does. A mapping that is merged into itself adds
its own entries only. The bound is on the depth of merging. -/
def mergedEntries (document : Document) : Nat → List Nat → Nat → Except Fault (List (Nat × Nat))
  | 0, _, _ => .error .malformed
  | bound + 1, enclosing, position => do
      match document.node position with
      | .mapping _ entries =>
          let (merging, own) := entries.partition fun (key, _) => document.tag key = .merge
          if enclosing.contains position then return own
          let inner := document.mergedEntries bound (position :: enclosing)
          let merged ← merging.mapM fun (_, value) =>
            match document.node value with
            | .mapping _ _ => inner value
            | .sequence _ items => return (← items.mapM inner).reverse.flatten
            | .scalar _ _ => throw .malformed
          return merged.flatten ++ own
      | _ => throw .malformed

/-- The key of an entry. Only atoms are keys, and the key `=` is a text. -/
def key (document : Document) (position : Nat) : Except Fault Atom := do
  if document.tag position = .value then return .text (← document.text position)
  match ← document.atom? position with
  | some atom => return atom
  | none => throw .malformed

/-- Sets a key of a mapping. A key that is there already keeps its place. -/
def setKey (entries : List (Atom × Nat)) (key : Atom) (value : Nat) : List (Atom × Nat) :=
  if entries.any fun entry => entry.1.sameKey key then
    entries.map fun entry => if entry.1.sameKey key then (entry.1, value) else entry
  else entries ++ [(key, value)]

/-- The entries of a mapping by their keys, each of the nodes inside looked at in turn. -/
def keyedEntries (document : Document) (position : Nat) : Except Fault (List (Atom × Nat)) := do
  let entries ← document.mergedEntries (document.nodes.size + 2) [] position
  entries.foldlM (fun keyed (key, value) => do
    let key ← document.key key
    let _ ← document.atom? value
    return setKey keyed key value) []

/-- The only entry of a mapping, its key and its value looked at in turn. -/
def soleEntry (document : Document) (position : Nat) : Except Fault (Nat × Nat) := do
  match document.node position with
  | .mapping _ [(key, value)] =>
      let _ ← document.atom? key
      let _ ← document.atom? value
      return (key, value)
  | _ => throw .malformed

/-- The items of a sequence. -/
def items (document : Document) (position : Nat) : Except Fault (List Nat) :=
  match document.node position with
  | .sequence _ items => .ok items
  | _ => .error .malformed

/-- What a node holds. The faults are its own and those of the atoms in it. -/
def content (document : Document) (position : Nat) : Except Fault Content := do
  match ← document.atom? position with
  | some atom => return .atom atom
  | none =>
      match document.tag position with
      | .set => return .set ((← document.keyedEntries position).map (·.1))
      | .sequence => do
          let items ← document.items position
          items.forM fun item => do
            let _ ← document.atom? item
          return .list items
      | .mapping => return .mapping (← document.keyedEntries position)
      | _ => return .pairs (← (← document.items position).mapM document.soleEntry)

/-- The nodes inside a node that may be collections, from left to right. The values of a key that is
given more than once are all among them. -/
def parts (document : Document) (position : Nat) : Except Fault (List Nat) := do
  match ← document.content position with
  | .atom _ => return []
  | .list items => return items
  | .pairs entries => return entries.flatMap fun (key, value) => [key, value]
  | _ => return (← document.mergedEntries (document.nodes.size + 2) [] position).map (·.2)

/-! ### Faults of a whole document -/

/-- Looks for faults in the nodes of one level that were not looked at before, then in those of the
levels below. A level has a node that was not looked at before or is the last, so the bound is never
reached when it is more than the number of nodes. -/
def checkLevels (document : Document) : Nat → List Nat → List Nat → Except Fault Unit
  | 0, _, _ => .ok ()
  | bound + 1, seen, level => do
      let fresh := (level.filter fun position => !seen.contains position).eraseDups
      if fresh.isEmpty then return
      let parts ← fresh.mapM document.parts
      document.checkLevels bound (fresh ++ seen) parts.flatten

/-- The content of the outermost node, if the whole document is without faults. -/
def checked (document : Document) : Except Fault Content := do
  document.checkLevels (document.nodes.size + 1) [] [document.root]
  document.content document.root

/-! ### Written forms -/

/-- The form of a node inside a collection. A collection inside itself is only hinted at. -/
def describe (document : Document) : Nat → List Nat → Nat → Except Fault String
  | 0, _, _ => .error .malformed
  | bound + 1, enclosing, position => do
      let inner := document.describe bound (position :: enclosing)
      let listed := fun (parts : List String) => String.intercalate ", " parts
      let isInside := enclosing.contains position
      match ← document.content position with
      | .atom value => value.describe
      | .list items =>
          if isInside then return "[...]"
          return "[" ++ listed (← items.mapM inner) ++ "]"
      | .pairs entries =>
          if isInside then return "[...]"
          let parts ← entries.mapM fun (key, value) => do
            return "(" ++ (← inner key) ++ ", " ++ (← inner value) ++ ")"
          return "[" ++ listed parts ++ "]"
      | .mapping entries =>
          if isInside then return "\x7b...\x7d"
          let parts ← entries.mapM fun (key, value) => do
            return (← key.describe) ++ ": " ++ (← inner value)
          return "\x7b" ++ listed parts ++ "\x7d"
      | .set [] => return "set()"
      | .set members => return "\x7b" ++ listed (← members.mapM Atom.describe) ++ "\x7d"

/-- The text of a node alone. -/
def render (document : Document) (position : Nat) : Except Fault String := do
  match ← document.content position with
  | .atom value => value.render
  | _ => document.describe (document.nodes.size + 2) [] position

end Wireform.Document
