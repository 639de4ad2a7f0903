import Wireform.Document.ScalarText

/-!
# From the text of a document to its tokens

In the tokens of a document, indentation shows as the starts and ends of blocks, and the key of a
mapping as a key mark, whether it was written or only implied.

Tokens are read one after another. A scalar, alias or collection may turn out to be the key of a
mapping when a colon follows it on its line, so a slot is left before each token that may begin a
key; once the colon is met the slot is filled with a key mark, and with the start of a block mapping
where the key is the first at its indentation. Blocks end where the indentation falls back.

Reading stops at the first fault. The tokens before it count as read, except those after a slot that
is still open.

- `Lexer.readToken` reads one token
- `Lexer.tokens` are the tokens of a document, with the fault that ended them if there was one
-/

namespace Wireform.Document

/-! ### Tokens -/

/-- A line of instructions before a document. -/
inductive Directive where
  | version (major : Nat)
  | tagHandle (handle tagStart : String)
  | other
  deriving DecidableEq, Repr

/-- A word of a document. -/
inductive Token where
  | directive (directive : Directive)
  | documentStart
  | documentEnd
  | blockSequenceStart
  | blockMappingStart
  | blockEnd
  | flowSequenceStart
  | flowSequenceEnd
  | flowMappingStart
  | flowMappingEnd
  | blockEntry
  | flowEntry
  | key
  | value
  | alias (name : String)
  | anchor (name : String)
  | tag (handle : Option String) (suffix : String)
  | scalar (text : String) (plain : Bool)
  | streamEnd
  deriving DecidableEq, Repr


/-- A slot that is filled if a key turns out to begin there. -/
structure Candidate where
  slot : Nat
  /-- Whether a colon has to follow. -/
  required : Bool
  index : Nat
  line : Nat
  column : Nat

/-- A token, or a slot before one. -/
inductive Entry where
  | token (token : Token)
  | slot (slot : Nat)

/-- The state of reading. -/
structure Lexer where
  place : Place
  /-- How many flow collections are open. -/
  flow : Nat := 0
  /-- The column of the innermost block, and -1 outside any. -/
  indent : Int := -1
  /-- The columns of the blocks around it. -/
  outerIndents : List Int := []
  /-- Whether a key may begin here. -/
  keyAllowed : Bool := true
  /-- The open slot of each level of flow collections, the innermost first. -/
  candidates : List (Option Candidate) := [none]
  /-- What has been read, the last first. -/
  entries : List Entry := []
  /-- The filled slots, each with whether a block mapping starts there. -/
  filled : List (Nat × Bool) := []
  slots : Nat := 0

/-- A step of reading. What was read before a fault stays read. -/
abbrev Lexing := EStateM Fault Lexer

namespace Lexer

/-- Adds a token. -/
def emit (token : Token) : Lexing Unit :=
  modify fun lexer => { lexer with entries := .token token :: lexer.entries }

/-- Moves on. -/
def moveTo (place : Place) : Lexing Unit :=
  modify fun lexer => { lexer with place }

/-- Says whether a key may begin after what is being read. -/
def allowKey (allowed : Bool) : Lexing Unit :=
  modify fun lexer => { lexer with keyAllowed := allowed }

/-- The text is malformed. -/
def refuse {α : Type} : Lexing α := throw .malformed

/-- Ends blocks until the indentation is at most `column`. -/
def unwindTo (column : Int) : Nat → Lexer → Lexer
  | 0, lexer => lexer
  | fuel + 1, lexer =>
      if lexer.indent > column then
        unwindTo column fuel { lexer with
          indent := lexer.outerIndents.headD (-1)
          outerIndents := lexer.outerIndents.tail
          entries := .token .blockEnd :: lexer.entries }
      else lexer

/-- Ends the blocks that are indented more than `column`. Flow collections have no indentation. -/
def unwind (column : Int) : Lexing Unit :=
  modify fun lexer =>
    if lexer.flow = 0 then unwindTo column (lexer.outerIndents.length + 1) lexer else lexer

/-- Begins a block at a column, unless one is open there; tells which. -/
def indentAt (column : Nat) : Lexing Bool := do
  let lexer ← get
  if lexer.indent < column then
    set { lexer with indent := column, outerIndents := lexer.indent :: lexer.outerIndents }
    return true
  else return false

/-- Gives up the open slot of the innermost collection. -/
def dropCandidate : Lexing Unit := do
  let lexer ← get
  match lexer.candidates with
  | some candidate :: outer =>
      if candidate.required then refuse
      set { lexer with candidates := none :: outer }
  | _ => return

/-- Leaves a slot before what comes next, if a key may begin here. -/
def noteCandidate : Lexing Unit := do
  let lexer ← get
  if lexer.keyAllowed then
    dropCandidate
    modify fun lexer =>
      let candidate : Candidate := {
        slot := lexer.slots
        required := lexer.flow = 0 && lexer.indent = lexer.place.column
        index := lexer.place.index
        line := lexer.place.line
        column := lexer.place.column }
      { lexer with
        slots := lexer.slots + 1
        entries := .slot lexer.slots :: lexer.entries
        candidates := some candidate :: lexer.candidates.tail }

/-- Whether no key can begin at a slot any more: keys stay on one line and are not long. -/
def isStale (place : Place) (candidate : Candidate) : Bool :=
  candidate.line != place.line || place.index - candidate.index > 1024

/-- Gives up the slots at which no key can begin any more. -/
def dropStale : Lexing Unit := do
  let lexer ← get
  let stale := fun (candidate : Option Candidate) => candidate.any (isStale lexer.place)
  if lexer.candidates.any fun c => stale c && c.any (·.required) then refuse
  set { lexer with candidates := lexer.candidates.map fun c => if stale c then none else c }

/-- Moves over blanks, comments and line breaks; a key may begin on a new line of a block. -/
def skipToToken (inFlow : Bool) : Nat → Lexer → Lexer
  | 0, lexer => lexer
  | fuel + 1, lexer =>
      let spaced := lexer.place.skipWhile (· == ' ')
      let after := if spaced.peek == '#' then spaced.skipWhile (!endsLine ·) else spaced
      match after.takeLineBreak with
      | ([], _) => { lexer with place := after }
      | (_, beyond) => skipToToken inFlow fuel
          { lexer with place := beyond, keyAllowed := lexer.keyAllowed || !inFlow }

/-- Moves to the next token. A byte order mark may stand at the start of the text. -/
def toNextToken : Lexing Unit := do
  let lexer ← get
  if lexer.place.index = 0 && lexer.place.peek == '\uFEFF' then moveTo lexer.place.next
  modify fun lexer => skipToToken (lexer.flow > 0) (lexer.place.rest.length + 1) lexer

/-! ### Words with a form of their own -/

/-- The characters of handles, anchors and names of directives. -/
def isHandleChar (c : Char) : Bool :=
  ('0' ≤ c && c ≤ '9') || ('A' ≤ c && c ≤ 'Z') || ('a' ≤ c && c ≤ 'z') || c == '-' || c == '_'

/-- The characters of tags and their beginnings, apart from escapes. -/
def isTagChar (c : Char) : Bool :=
  isHandleChar c || ";/?:@&=+$,.!~*'()[]".toList.contains c

/-- The bytes of a row of escapes, and the place after them. -/
def tagEscapes : Nat → Place → Except Fault (List UInt8 × Place)
  | 0, _ => .error .malformed
  | fuel + 1, place =>
      if place.peek == '%' then
        let digits := place.next.rest.take 2
        if digits.length == 2 && digits.all (Numeral.isBaseDigit 16) then do
          let (others, final) ← tagEscapes fuel (place.skip 3)
          return ((Numeral.digitsValue 16 digits).toUInt8 :: others, final)
        else .error .malformed
      else .ok ([], place)

/-- The text of a tag from a place on. -/
def tagTextFrom : Nat → Place → Except Fault (List Char × Place)
  | 0, _ => .error .malformed
  | fuel + 1, place =>
      if place.peek == '%' then do
        let (bytes, after) ← tagEscapes (place.rest.length + 1) place
        match String.fromUTF8? ⟨bytes.toArray⟩ with
        | none => .error .malformed
        | some text =>
            let (others, final) ← tagTextFrom fuel after
            return (text.toList ++ others, final)
      else
        let (taken, after) := place.takeWhile isTagChar
        if after.peek == '%' then do
          let (others, final) ← tagTextFrom fuel after
          return (taken ++ others, final)
        else .ok (taken, after)

/-- The text of a tag or of the beginning of tags, which is not empty. -/
def tagText (place : Place) : Except Fault (String × Place) := do
  if isTagChar place.peek || place.peek == '%' then
    let (text, after) ← tagTextFrom (place.rest.length + 1) place
    return (String.ofList text, after)
  else .error .malformed

/-- The handle of a tag: a mark, or a name between two marks. -/
def tagHandle (place : Place) : Except Fault (String × Place) :=
  if place.peek != '!' then .error .malformed
  else if place.peek 1 == ' ' then .ok ("!", place.next)
  else
    let (name, after) := place.next.takeWhile isHandleChar
    if after.peek == '!' then .ok (String.ofList ('!' :: name ++ ['!']), after.next)
    else .error .malformed

/-- A tag from its mark on. -/
def tagToken (place : Place) : Except Fault (Token × Place) := do
  let c := place.peek 1
  let (token, after) ←
    if c == '<' then do
      let (suffix, after) ← tagText (place.skip 2)
      if after.peek != '>' then throw .malformed
      pure (Token.tag none suffix, after.next)
    else if endsMark c then pure (Token.tag none "!", place.next)
    else if (place.next.rest.takeWhile (!endsWord ·)).contains '!' then do
      let (handle, between) ← tagHandle place
      let (suffix, after) ← tagText between
      pure (Token.tag (some handle) suffix, after)
    else do
      let (suffix, after) ← tagText place.next
      pure (Token.tag (some "!") suffix, after)
  if endsWord after.peek then return (token, after) else throw .malformed

/-- The name after the mark of an anchor or alias, and the place after it. -/
def anchorName (place : Place) : Except Fault (String × Place) :=
  let (name, after) := place.next.takeWhile isHandleChar
  let c := after.peek
  if name.isEmpty || !(endsMark c || "?:,]\x7d%@`".toList.contains c) then .error .malformed
  else .ok (String.ofList name, after)

/-- A whole number in a directive. -/
def directiveNumber (place : Place) : Except Fault (Nat × Place) :=
  let (digits, after) := place.takeWhile (Numeral.isBaseDigit 10)
  if digits.isEmpty then .error .malformed
  else do
    let value ← (Numeral.read 10 (String.ofList digits)).mapError .numeral
    return (value.toNat, after)

/-- The version in a directive. -/
def versionDirective (place : Place) : Except Fault (Directive × Place) := do
  let (major, between) ← directiveNumber (place.skipWhile (· == ' '))
  if between.peek != '.' then throw .malformed
  let (_, after) ← directiveNumber between.next
  if endsWord after.peek then return (.version major, after) else throw .malformed

/-- The handle and the beginning of tags in a directive. -/
def tagDirective (place : Place) : Except Fault (Directive × Place) := do
  let (handle, between) ← tagHandle (place.skipWhile (· == ' '))
  if between.peek != ' ' then throw .malformed
  let (start, after) ← tagText (between.skipWhile (· == ' '))
  if endsWord after.peek then return (.tagHandle handle start, after) else throw .malformed

/-- A directive from its mark on. -/
def directiveToken (place : Place) : Except Fault (Token × Place) := do
  let (name, named) := place.next.takeWhile isHandleChar
  if name.isEmpty || !endsWord named.peek then throw .malformed
  let (directive, after) ←
    match String.ofList name with
    | "YAML" => versionDirective named
    | "TAG" => tagDirective named
    | _ => pure (Directive.other, named.skipWhile (!endsLine ·))
  return (.directive directive, ← skipLineEnd after)

/-! ### Tokens -/

/-- Reads a token with a form of its own. -/
def readForm (form : Place → Except Fault (Token × Place)) : Lexing Unit := do
  match form (← get).place with
  | .error fault => throw fault
  | .ok (token, after) =>
      moveTo after
      emit token

/-- Reads a mark of `width` characters. -/
def readMark (token : Token) (width : Nat := 1) : Lexing Unit := do
  moveTo ((← get).place.skip width)
  emit token

/-- Ends all blocks, where something follows that belongs to no block. -/
def leaveBlocks : Lexing Unit := do
  unwind (-1)
  dropCandidate
  allowKey false

/-- Reads the start of a flow collection. -/
def readFlowStart (token : Token) : Lexing Unit := do
  noteCandidate
  modify fun lexer => { lexer with
    flow := lexer.flow + 1, candidates := none :: lexer.candidates }
  allowKey true
  readMark token

/-- Reads the end of a flow collection. -/
def readFlowEnd (token : Token) : Lexing Unit := do
  dropCandidate
  modify fun lexer => { lexer with
    flow := lexer.flow - 1
    candidates := if lexer.flow = 0 then lexer.candidates else lexer.candidates.tail }
  allowKey false
  readMark token

/-- Begins a block at the current column, where a mark begins one. -/
def beginBlock (start : Token) : Lexing Unit := do
  let lexer ← get
  if lexer.flow = 0 then
    if !lexer.keyAllowed then refuse
    if ← indentAt lexer.place.column then emit start

/-- Reads the mark of a sequence entry in a block. -/
def readBlockEntry : Lexing Unit := do
  beginBlock .blockSequenceStart
  allowKey true
  dropCandidate
  readMark .blockEntry

/-- Reads the mark of a key. -/
def readKey : Lexing Unit := do
  beginBlock .blockMappingStart
  allowKey ((← get).flow = 0)
  dropCandidate
  readMark .key

/-- Reads the mark of a value; the open slot, if there is one, is the key's. -/
def readValue : Lexing Unit := do
  match (← get).candidates with
  | some candidate :: outer =>
      modify fun lexer => { lexer with candidates := none :: outer }
      let opens ← if (← get).flow = 0 then indentAt candidate.column else pure false
      modify fun lexer => { lexer with filled := (candidate.slot, opens) :: lexer.filled }
      allowKey false
  | _ =>
      beginBlock .blockMappingStart
      allowKey ((← get).flow = 0)
      dropCandidate
  readMark .value

/-- Reads a token that may be a key by itself. -/
def readKeyable (form : Place → Except Fault (Token × Place)) : Lexing Unit := do
  noteCandidate
  allowKey false
  readForm form

/-- Reads a plain scalar. -/
def readPlain : Lexing Unit := do
  noteCandidate
  let lexer ← get
  let (text, after, broken) := plainScalar (lexer.flow > 0) (lexer.indent + 1) lexer.place
  moveTo after
  allowKey broken
  emit (.scalar (String.ofList text) true)

/-- Reads a block scalar. -/
def readBlock (folded : Bool) : Lexing Unit := do
  allowKey true
  dropCandidate
  let indent := (← get).indent
  readForm fun place => do
    let (text, after) ← blockScalar folded indent place
    return (.scalar (String.ofList text) false, after)

/-- A quoted scalar. -/
def quotedToken (double : Bool) (place : Place) : Except Fault (Token × Place) := do
  let (text, after) ← quotedScalar double place
  return (.scalar (String.ofList text) false, after)

/-- An alias. -/
def aliasToken (place : Place) : Except Fault (Token × Place) := do
  let (name, after) ← anchorName place
  return (.alias name, after)

/-- An anchor. -/
def anchorToken (place : Place) : Except Fault (Token × Place) := do
  let (name, after) ← anchorName place
  return (.anchor name, after)

/-- Whether a plain scalar can begin here. -/
def beginsPlain (inFlow : Bool) (place : Place) : Bool :=
  let c := place.peek
  !(endsMark c || "-?:,[]\x7b\x7d#&*!|>'\"%@`".toList.contains c)
    || (!endsMark (place.peek 1) && (c == '-' || (!inFlow && (c == '?' || c == ':'))))

/-- Reads the end of the document. -/
def readEnd : Lexing Unit := do
  leaveBlocks
  modify fun lexer => { lexer with candidates := lexer.candidates.map fun _ => none }
  emit .streamEnd

/-- Reads the token at the current place, and tells whether it was the last. -/
def readHere : Lexing Bool := do
  let lexer ← get
  let place := lexer.place
  let inFlow := lexer.flow > 0
  let spaced := endsMark (place.peek 1)
  let c := place.peek
  if c == endMark then
    readEnd
    return true
  if c == '%' && place.column = 0 then
    leaveBlocks
    readForm directiveToken
  else if place.column = 0 && place.atMarker '-' then
    leaveBlocks
    readMark .documentStart 3
  else if place.column = 0 && place.atMarker '.' then
    leaveBlocks
    readMark .documentEnd 3
  else if c == '[' then readFlowStart .flowSequenceStart
  else if c == '{' then readFlowStart .flowMappingStart
  else if c == ']' then readFlowEnd .flowSequenceEnd
  else if c == '}' then readFlowEnd .flowMappingEnd
  else if c == ',' then
    allowKey true
    dropCandidate
    readMark .flowEntry
  else if c == '-' && spaced then readBlockEntry
  else if c == '?' && (inFlow || spaced) then readKey
  else if c == ':' && (inFlow || spaced) then readValue
  else if c == '*' then readKeyable aliasToken
  else if c == '&' then readKeyable anchorToken
  else if c == '!' then readKeyable tagToken
  else if c == '|' && !inFlow then readBlock false
  else if c == '>' && !inFlow then readBlock true
  else if c == '\'' then readKeyable (quotedToken false)
  else if c == '"' then readKeyable (quotedToken true)
  else if beginsPlain inFlow place then readPlain
  else refuse
  return false

/-- Reads one token, and tells whether it was the last. -/
def readToken : Lexing Bool := do
  toNextToken
  dropStale
  unwind (← get).place.column
  readHere

/-- Reads tokens up to the last. Each takes at least one character. -/
def readTokens : Nat → Lexing Unit
  | 0 => return
  | fuel + 1 => do if !(← readToken) then readTokens fuel

/-- The tokens of the entries, with the filled slots in their places. -/
def fillSlots (filled : List (Nat × Bool)) (entries : List Entry) : List Token :=
  entries.flatMap fun
    | .token token => [token]
    | .slot slot => match filled.lookup slot with
      | none => []
      | some false => [.key]
      | some true => [.blockMappingStart, .key]

/-- The entries before the first slot that is still open. -/
def beforeOpenSlot (lexer : Lexer) : List Entry :=
  let openSlots := lexer.candidates.filterMap fun c => c.map (·.slot)
  lexer.entries.reverse.takeWhile fun
    | .token _ => true
    | .slot slot => !openSlots.contains slot

/-- The characters that may stand in a document. -/
def isDocumentChar (c : Char) : Bool :=
  c == '\t' || c == '\n' || c == '\r' || (' ' ≤ c && c ≤ '~') || c == '\x85'
    || ('\xa0' ≤ c && c.toNat ≤ 0xFFFD) || 0x10000 ≤ c.toNat

/-- The tokens of a document, and the fault at which reading stopped if there was one. -/
def tokens (text : String) : List Token × Option Fault :=
  let chars := text.toList
  if chars.all isDocumentChar then
    match readTokens (chars.length + 2) { place := { rest := chars } } with
    | .ok _ lexer => (fillSlots lexer.filled lexer.entries.reverse, none)
    | .error fault lexer => (fillSlots lexer.filled lexer.beforeOpenSlot, some fault)
  else ([], some .malformed)

end Lexer

end Wireform.Document
