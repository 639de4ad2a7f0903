import Wireform.Document.Lexer
import Wireform.Document.Tag

/-!
# From tokens to nodes

Reading takes the tokens of a text from left to right. A fault of the text is met where the token
that could not be read is asked for, so a fault among the tokens before it is the one that is told.

A text holds at most one document. A node without content is empty where something else shows that
it is there: its anchor or tag, the mark of an entry, or the mark of a key.

- `Document.read` is the document of a text, if it holds one
-/

namespace Wireform.Document

/-- A place among the tokens, and what was read before it. -/
structure Reader where
  rest : List Token
  /-- The fault that is met after the last token. -/
  fault : Option Fault
  nodes : Array Node := #[]
  /-- The positions of the nodes with an anchor. -/
  anchors : List (String × Nat) := []
  /-- What the handles of tags stand for. -/
  handles : List (String × String) := []

/-- A reading step over the tokens of a text. -/
abbrev Reading := EStateM Fault Reader

namespace Reader

/-- The next token. -/
def peek : Reading Token := fun reader =>
  match reader.rest with
  | [] => .error (reader.fault.getD .malformed) reader
  | token :: _ => .ok token reader

/-- Goes past the next token. -/
def skip : Reading Unit :=
  modify fun reader => { reader with rest := reader.rest.tail }

/-- Adds a node. -/
def add (node : Node) : Reading Nat := fun reader =>
  .ok reader.nodes.size { reader with nodes := reader.nodes.push node }

/-- Sets the node at a position. -/
def fill (position : Nat) (node : Node) : Reading Unit :=
  modify fun reader => { reader with nodes := reader.nodes.setIfInBounds position node }

/-- The position of the node with an anchor. -/
def anchored (name : String) : Reading Nat := do
  match (← get).anchors.lookup name with
  | some position => return position
  | none => throw .malformed

/-- Gives an anchor, which must be new, to the node at a position. -/
def setAnchor (anchor : Option String) (position : Nat) : Reading Unit := do
  match anchor with
  | none => return
  | some name =>
      if ((← get).anchors.lookup name).isSome then throw .malformed
      modify fun reader => { reader with anchors := (name, position) :: reader.anchors }

/-! ### Properties of nodes -/

/-- The name of a tag, with its handle replaced by what it stands for. -/
def tagName (handle : Option String) (suffix : String) : Reading String := do
  match handle with
  | none => return suffix
  | some handle =>
      match (← get).handles.lookup handle with
      | some start => return start ++ suffix
      | none => throw .malformed

/-- The anchor of a node, if one follows. -/
def anchorHere : Reading (Option String) := do
  match ← peek with
  | .anchor name =>
      skip
      return some name
  | _ => return none

/-- The tag of a node as it is written, if one follows. -/
def tagHere : Reading (Option (Option String × String)) := do
  match ← peek with
  | .tag handle suffix =>
      skip
      return some (handle, suffix)
  | _ => return none

/-- The anchor and the name of the tag of a node, in either order. -/
def properties : Reading (Option String × Option String) := do
  let (anchor, tag) ← match ← anchorHere with
    | some anchor => pure (some anchor, ← tagHere)
    | none => do
        let tag ← tagHere
        if tag.isSome then pure (← anchorHere, tag) else pure (none, none)
  match tag with
  | none => return (anchor, none)
  | some (handle, suffix) => return (anchor, some (← tagName handle suffix))

/-- The tag of a scalar: what is written, or what its form implies. The tag `!` asks for the form,
even inside quotes. -/
def scalarTag (tag : Option String) (text : String) (plain : Bool) : Tag :=
  match tag with
  | none => if plain then .implied text else .text
  | some "!" => .implied text
  | some name => .ofUri name

/-- The tag of a collection: what is written, or that of its kind. -/
def collectionTag (tag : Option String) (kind : Tag) : Tag :=
  match tag with
  | none => kind
  | some "!" => kind
  | some name => .ofUri name

/-! ### Collections

Each step below reads the content of a collection with a given step for the nodes inside. The bound
on the number of entries is never reached when it is the number of tokens. -/

/-- A node, or the empty node before certain tokens. -/
def nodeUnless (ends : List Token) (node : Reading Nat) : Reading Nat := do
  if ends.contains (← peek) then add .empty else node

/-- Takes a token if it is the next one, and tells whether it was. -/
def takes (token : Token) : Reading Bool := do
  if (← peek) = token then
    skip
    return true
  else return false

/-- The items of a sequence with its own indentation. -/
def blockItems (node : Reading Nat) : Nat → Reading (List Nat)
  | 0 => throw .malformed
  | bound + 1 => do
      if ← takes .blockEntry then
        let item ← nodeUnless [.blockEntry, .blockEnd] node
        return item :: (← blockItems node bound)
      else if ← takes .blockEnd then return []
      else throw .malformed

/-- The items of a sequence with the indentation of the key before it. -/
def alignedItems (node : Reading Nat) : Nat → Reading (List Nat)
  | 0 => throw .malformed
  | bound + 1 => do
      if ← takes .blockEntry then
        let item ← nodeUnless [.blockEntry, .key, .value, .blockEnd] node
        return item :: (← alignedItems node bound)
      else return []

/-- A key or a value of a mapping in a block, after its mark. -/
def blockPart (mark : Token) (node : Reading Nat) : Reading Nat := do
  if ← takes mark then nodeUnless [.key, .value, .blockEnd] node else add .empty

/-- The entries of a mapping in a block. -/
def blockPairs (node : Reading Nat) : Nat → Reading (List (Nat × Nat))
  | 0 => throw .malformed
  | bound + 1 => do
      if (← peek) = .key then
        let key ← blockPart .key node
        let value ← blockPart .value node
        return (key, value) :: (← blockPairs node bound)
      else if ← takes .blockEnd then return []
      else throw .malformed

/-- The comma that divides entries in brackets, needed before all but the first. -/
def divider (first : Bool) : Reading Unit := do
  if first then return
  if !(← takes .flowEntry) then throw .malformed

/-- The value of a pair in brackets, if there is one before the tokens that end it. -/
def flowValue (ends : List Token) (node : Reading Nat) : Reading Nat := do
  if ← takes .value then nodeUnless ends node else add .empty

/-- A key, after its mark, and its value in brackets. -/
def flowPair (close : Token) (node : Reading Nat) : Reading (Nat × Nat) := do
  skip
  let key ← nodeUnless [.value, .flowEntry, close] node
  return (key, ← flowValue [.flowEntry, close] node)

/-- The items of a sequence in brackets. A pair stands for a mapping with one entry. -/
def flowItems (node : Reading Nat) (first : Bool := true) : Nat → Reading (List Nat)
  | 0 => throw .malformed
  | bound + 1 => do
      if ← takes .flowSequenceEnd then return []
      divider first
      match ← peek with
      | .key =>
          let position ← add (.mapping .mapping [])
          fill position (.mapping .mapping [← flowPair .flowSequenceEnd node])
          return position :: (← flowItems node false bound)
      | .flowSequenceEnd =>
          skip
          return []
      | _ =>
          let item ← node
          return item :: (← flowItems node false bound)

/-- The entries of a mapping in braces. A node without a key mark is a key without a value. -/
def flowPairs (node : Reading Nat) (first : Bool := true) : Nat → Reading (List (Nat × Nat))
  | 0 => throw .malformed
  | bound + 1 => do
      if ← takes .flowMappingEnd then return []
      divider first
      match ← peek with
      | .key =>
          let pair ← flowPair .flowMappingEnd node
          return pair :: (← flowPairs node false bound)
      | .flowMappingEnd =>
          skip
          return []
      | _ =>
          let key ← node
          let value ← add .empty
          return (key, value) :: (← flowPairs node false bound)

/-- Reads a sequence. It is known by its anchor inside itself. -/
def sequence (anchor tag : Option String) (items : Reading (List Nat)) : Reading Nat := do
  let tag := collectionTag tag .sequence
  let position ← add (.sequence tag [])
  setAnchor anchor position
  fill position (.sequence tag (← items))
  return position

/-- Reads a mapping. It is known by its anchor inside itself. -/
def mapping (anchor tag : Option String) (entries : Reading (List (Nat × Nat))) : Reading Nat := do
  let tag := collectionTag tag .mapping
  let position ← add (.mapping tag [])
  setAnchor anchor position
  fill position (.mapping tag (← entries))
  return position

/-- Reads a scalar. -/
def scalar (anchor : Option String) (tag : Tag) (text : String) : Reading Nat := do
  let position ← add (.scalar tag text)
  setAnchor anchor position
  return position

/-! ### Nodes and documents -/

/-- Where a node stands, which decides the collections that may stand there. -/
inductive Setting where
  /-- Inside brackets or braces. -/
  | flow
  /-- In a block, as a whole document or an item. -/
  | block
  /-- In a block, as a key or a value. -/
  | part
  deriving DecidableEq, Repr

/-- Reads a node. Every node inside a collection comes after a token of the collection, so the bound
is never reached when it is more than the number of tokens. -/
def node : Nat → Setting → Reading Nat
  | 0, _ => throw .malformed
  | bound + 1, setting => do
      if let .alias name ← peek then
        skip
        return ← anchored name
      let (anchor, tag) ← properties
      match ← peek with
      | .scalar text plain =>
          skip
          scalar anchor (scalarTag tag text plain) text
      | .flowSequenceStart =>
          sequence anchor tag (do skip; flowItems (node bound .flow) true bound)
      | .flowMappingStart =>
          mapping anchor tag (do skip; flowPairs (node bound .flow) true bound)
      | token =>
          if token = .blockEntry && setting = .part then
            sequence anchor tag (alignedItems (node bound .block) bound)
          else if token = .blockSequenceStart && setting ≠ .flow then
            sequence anchor tag (do skip; blockItems (node bound .block) bound)
          else if token = .blockMappingStart && setting ≠ .flow then
            mapping anchor tag (do skip; blockPairs (node bound .part) bound)
          else if anchor.isSome || tag.isSome then scalar anchor (scalarTag tag "" true) ""
          else throw .malformed

/-- The handles of tags that need no directive. -/
def commonHandles : List (String × String) := [("!", "!"), ("!!", "tag:yaml.org,2002:")]

/-- Reads directives. A document has at most one version, and defines a handle at most once. -/
def directives (versionSeen : Bool := false) : Nat → Reading Unit
  | 0 => throw .malformed
  | bound + 1 => do
      match ← peek with
      | .directive (.version major) =>
          skip
          if versionSeen || major ≠ 1 then throw .malformed
          directives true bound
      | .directive (.tagHandle handle start) =>
          skip
          if ((← get).handles.lookup handle).isSome then throw .malformed
          modify fun reader => { reader with handles := (handle, start) :: reader.handles }
          directives versionSeen bound
      | .directive .other =>
          skip
          directives versionSeen bound
      | _ => modify fun reader => { reader with handles := reader.handles ++ commonHandles }

/-- Goes past the marks of the end of a document. -/
def skipEnds : Nat → Reading Unit
  | 0 => throw .malformed
  | bound + 1 => do if ← takes .documentEnd then skipEnds bound

/-- Whether a token ends a document that has no content. -/
def endsDocument : Token → Bool
  | .directive _ => true
  | .documentStart => true
  | .documentEnd => true
  | .streamEnd => true
  | _ => false

/-- Reads a document that starts with its mark. -/
def markedDocument (bound : Nat) : Reading Nat := do
  directives false bound
  if !(← takes .documentStart) then throw .malformed
  if endsDocument (← peek) then add .empty else node bound .block

/-- Reads the only document of a text, or nothing if the text holds none. -/
def document (bound : Nat) : Reading (Option Nat) := do
  let root ← match ← peek with
    | .streamEnd => return none
    | .documentStart => markedDocument bound
    | .directive _ => markedDocument bound
    | _ => do
        modify fun reader => { reader with handles := commonHandles }
        node bound .block
  skipEnds bound
  if (← peek) ≠ .streamEnd then throw .malformed
  return some root

end Reader

/-- The document of a text, or nothing if the text holds none. -/
def read (text : String) : Except Fault (Option Document) :=
  let (tokens, fault) := Lexer.tokens text
  match Reader.document (tokens.length + 2) { rest := tokens, fault } with
  | .error fault _ => .error fault
  | .ok root reader => .ok (root.map fun root => { nodes := reader.nodes, root })

end Wireform.Document
