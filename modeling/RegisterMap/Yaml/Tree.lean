import RegisterMap.Yaml.Error
import RegisterMap.Yaml.Token

/-!
# From YAML Tokens to Trees

A tree is a document as written: scalars are still text, tags are resolved to full names, and an
alias stands for the tree with its slot number.

## Conventions

An anchor gets a **slot**, the number of different anchor names before it in the document. A name
that is anchored again moves to the slot that the next new name would get. Readers with an argument
`fuel` use one unit for each step of the grammar; `readTrees` provides enough for any token list.
-/

namespace RegisterMap.Yaml

/-- What stands in front of a node. -/
structure Properties where
  /-- The slot of the node's anchor. -/
  anchor : Option Nat := none
  /-- The full name of the node's tag. -/
  tag : Option TagBytes := none
deriving Repr, Inhabited

/-- A **document as written**. -/
inductive Tree where
  | alias (slot : Nat)
  | scalar (properties : Properties) (text : String) (plain : Bool)
  | seq (properties : Properties) (items : List Tree)
  | map (properties : Properties) (entries : List (Tree × Tree))
deriving Repr, Inhabited

namespace Tree

/-- A node without text, which stands where a node was left out. -/
def empty : Tree := .scalar {} "" true

end Tree

/-- The state of **reading a document** from tokens. -/
structure Reading where
  tokens : List Token
  /-- The slot of each anchor name. -/
  anchors : List (String × Nat) := []
  /-- What each tag handle stands for. -/
  handles : List (String × TagBytes) := []
  /-- The size of the document so far: one for a scalar or an alias, two for a collection. -/
  size : Nat := 0
deriving Inhabited

/-- A step of reading a document. -/
abbrev Reader := StateT Reading (Except Error)

namespace Reader

/-! ### Tokens -/

/-- The next token; none at the end of the text. -/
def peek : Reader (Option Token) := do return (← get).tokens.head?

/-- Move over one token. -/
def skip : Reader Unit := modify fun s => { s with tokens := s.tokens.drop 1 }

/-- Count the size of a node. -/
def grow (n : Nat) : Reader Unit := modify fun s => { s with size := s.size + n }

/-- Give the next slot to an anchor name. -/
def bindAnchor (name : String) : Reader Nat := do
  let s ← get
  let slot := s.anchors.length
  let anchors :=
    if s.anchors.any (·.1 == name) then
      s.anchors.map fun (n, k) => if n == name then (n, slot) else (n, k)
    else s.anchors ++ [(name, slot)]
  set { s with anchors }
  return slot

/-- The slot of an anchor name. -/
def slotOf (name : String) : Reader Nat := do
  match (← get).anchors.lookup name with
  | some slot => return slot
  | none => throw .unknownAnchor

/-- The full name of a tag. -/
def expandTag (handle : String) (suffix : TagBytes) : Reader TagBytes := do
  if handle.isEmpty then return suffix
  match (← get).handles.lookup handle with
  | some start => return start ++ suffix
  | none => throw .unknownTagHandle

/-! ### Properties -/

/-- Read an anchor, if one is next. -/
def readAnchor : Reader (Option String) := do
  match ← peek with
  | some (.anchor name) => skip; return some name
  | _ => return none

/-- Read a tag, if one is next. -/
def readTagProperty : Reader (Option (String × TagBytes)) := do
  match ← peek with
  | some (.tag handle suffix) => skip; return some (handle, suffix)
  | _ => return none

/-- Read an **anchor and a tag** in either order. -/
def readProperties : Reader Properties := do
  let before ← readAnchor
  let tag ← readTagProperty
  let name ← match before, tag with
    | none, some _ => readAnchor
    | name, _ => pure name
  let tag ← tag.mapM fun (handle, suffix) => expandTag handle suffix
  let anchor ← name.mapM bindAnchor
  return { anchor, tag }

/-- A node that was left out. -/
def emptyNode : Reader Tree := do
  grow 1
  return Tree.empty

/-! ### Nodes -/

/-- The tokens that end an item of a block collection without any node. -/
def endsBlockItem : Option Token → Bool
  | some .blockEntry | some .key | some .value | some .blockEnd => true
  | _ => false

/-- The tokens that end a key or a value of a block mapping without any node. -/
def endsBlockValue : Option Token → Bool
  | some .key | some .value | some .blockEnd => true
  | _ => false

/-- The tokens that end a part of a flow sequence without any node. -/
def endsFlowItem : Option Token → Bool
  | some .flowEntry | some .flowSequenceEnd => true
  | _ => false

/-- The tokens that end a part of a flow mapping without any node. -/
def endsFlowValue : Option Token → Bool
  | some .flowEntry | some .flowMappingEnd => true
  | _ => false

/-- A node that has properties and nothing else; without properties there is none. -/
def leftOut (properties : Properties) : Reader Tree := do
  if properties.anchor.isSome || properties.tag.isSome then
    grow 1
    return .scalar properties "" true
  else throw .unexpectedToken

mutual

/-- Read a **node**. Block collections are allowed only if `block` holds, and items without
indentation of their own only if `flush` holds. -/
def node : Nat → Bool → Bool → Reader Tree
  | 0, _, _ => throw .unexpectedToken
  | fuel + 1, block, flush => do
    match ← peek with
    | some (.alias name) =>
      skip
      grow 1
      return .alias (← slotOf name)
    | _ => do
      let properties ← readProperties
      let collection := grow 2
      match ← peek with
      | some .blockEntry =>
        if flush then
          collection
          return .seq properties (← flushItems fuel [])
        else leftOut properties
      | some (.scalar text plain) =>
        skip
        grow 1
        return .scalar properties text plain
      | some .flowSequenceStart =>
        skip
        collection
        return .seq properties (← flowItems fuel true [])
      | some .flowMappingStart =>
        skip
        collection
        return .map properties (← flowEntries fuel true [])
      | some .blockSequenceStart =>
        if block then
          skip
          collection
          return .seq properties (← blockItems fuel [])
        else leftOut properties
      | some .blockMappingStart =>
        if block then
          skip
          collection
          return .map properties (← blockEntries fuel [])
        else leftOut properties
      | _ => leftOut properties

/-- Read the items of a block sequence. -/
def blockItems : Nat → List Tree → Reader (List Tree)
  | 0, _ => throw .unexpectedToken
  | fuel + 1, acc => do
    match ← peek with
    | some .blockEntry =>
      skip
      match ← peek with
      | some .blockEntry | some .blockEnd => blockItems fuel ((← emptyNode) :: acc)
      | _ => blockItems fuel ((← node fuel true false) :: acc)
    | some .blockEnd =>
      skip
      return acc.reverse
    | _ => throw .unexpectedToken

/-- Read the items of a block sequence that stands at the column of the mapping around it. -/
def flushItems : Nat → List Tree → Reader (List Tree)
  | 0, _ => throw .unexpectedToken
  | fuel + 1, acc => do
    match ← peek with
    | some .blockEntry =>
      skip
      if endsBlockItem (← peek) then flushItems fuel ((← emptyNode) :: acc)
      else flushItems fuel ((← node fuel true false) :: acc)
    | _ => return acc.reverse

/-- Read the entries of a block mapping. -/
def blockEntries : Nat → List (Tree × Tree) → Reader (List (Tree × Tree))
  | 0, _ => throw .unexpectedToken
  | fuel + 1, acc => do
    match ← peek with
    | some .key =>
      skip
      let key ← if endsBlockValue (← peek) then emptyNode else node fuel true true
      match ← peek with
      | some .value =>
        skip
        let value ← if endsBlockValue (← peek) then emptyNode else node fuel true true
        blockEntries fuel ((key, value) :: acc)
      | _ => blockEntries fuel ((key, ← emptyNode) :: acc)
    | some .blockEnd =>
      skip
      return acc.reverse
    | _ => throw .unexpectedToken

/-- Read the items of a flow sequence; `first` holds in front of the first one. -/
def flowItems : Nat → Bool → List Tree → Reader (List Tree)
  | 0, _, _ => throw .unexpectedToken
  | fuel + 1, first, acc => do
    if (← peek) == some .flowSequenceEnd then
      skip
      return acc.reverse
    if !first then
      if (← peek) == some .flowEntry then skip else throw .unexpectedToken
    match ← peek with
    | some .key =>
      skip
      grow 2
      flowItems fuel false (.map {} [← pairEntry fuel] :: acc)
    | some .flowSequenceEnd =>
      skip
      return acc.reverse
    | _ => flowItems fuel false ((← node fuel false false) :: acc)

/-- Read a single key and value inside a flow sequence. Where the key is left out, the token that
stands in its place is passed over. -/
def pairEntry : Nat → Reader (Tree × Tree)
  | 0 => throw .unexpectedToken
  | fuel + 1 => do
    let next ← peek
    let key ←
      if next == some .value || endsFlowItem next then do
        skip
        emptyNode
      else node fuel false false
    match ← peek with
    | some .value =>
      skip
      let value ← if endsFlowItem (← peek) then emptyNode else node fuel false false
      return (key, value)
    | _ => return (key, ← emptyNode)

/-- Read the entries of a flow mapping; `first` holds in front of the first one. -/
def flowEntries : Nat → Bool → List (Tree × Tree) → Reader (List (Tree × Tree))
  | 0, _, _ => throw .unexpectedToken
  | fuel + 1, first, acc => do
    if (← peek) == some .flowMappingEnd then
      skip
      return acc.reverse
    if !first then
      if (← peek) == some .flowEntry then skip else throw .unexpectedToken
    match ← peek with
    | some .key =>
      skip
      let next ← peek
      let key ←
        if next == some .value || endsFlowValue next then emptyNode else node fuel false false
      match ← peek with
      | some .value =>
        skip
        let value ← if endsFlowValue (← peek) then emptyNode else node fuel false false
        flowEntries fuel false ((key, value) :: acc)
      | _ => flowEntries fuel false ((key, ← emptyNode) :: acc)
    | some .flowMappingEnd =>
      skip
      return acc.reverse
    | _ => do
      let key ← node fuel false false
      flowEntries fuel false ((key, ← emptyNode) :: acc)

end

/-! ### Documents -/

/-- Read the directives of a document. A version may be given once and has to be 1.1 or 1.2; a
handle may be declared once. -/
def readDirectives : Nat → Bool → Reader Unit
  | 0, _ => pure ()
  | fuel + 1, hasVersion => do
    match ← peek with
    | some (.versionDirective major minor) =>
      if hasVersion || major != 1 || (minor != 1 && minor != 2) then throw .badDirective
      skip
      readDirectives fuel true
    | some (.tagDirective handle start) =>
      let s ← get
      if s.handles.any (·.1 == handle) then throw .badDirective
      set { s with handles := s.handles ++ [(handle, start)] }
      skip
      readDirectives fuel hasVersion
    | _ => pure ()

/-- The handles that need no directive. -/
def defaultHandles : List (String × TagBytes) :=
  [("!", TagBytes.ofChars ['!']), ("!!", repositoryTag "")]

/-- The tokens that can follow a document start marker when the document is empty. -/
def endsDocument : Option Token → Bool
  | none => true
  | some (.versionDirective ..) | some (.tagDirective ..) => true
  | some .documentStart | some .documentEnd => true
  | _ => false

/-- Read one document: directives and a start marker, which only the first document may leave out,
the root node, and an end marker if there is one. -/
def readDocument (fuel : Nat) (first : Bool) : Reader Tree := do
  modify fun s => { s with anchors := [], handles := [], size := 0 }
  let next ← peek
  let bare := first && !(match next with
    | some (.versionDirective ..) | some (.tagDirective ..) | some .documentStart => true
    | _ => false)
  if !bare then
    readDirectives fuel false
    if (← peek) != some .documentStart then throw .unexpectedToken
    skip
  modify fun s => { s with handles := s.handles ++ defaultHandles }
  let tree ←
    if !bare && endsDocument (← peek) then emptyNode else node fuel true false
  if (← peek) == some .documentEnd then skip
  return tree

end Reader

/-- A document as written, with its size. -/
structure Document where
  root : Tree
  size : Nat
deriving Repr, Inhabited

/-- Read the documents of a stream. Every document takes at least one token. -/
def readDocuments : Nat → Bool → List Token → Except Error (List Document)
  | 0, _, _ => .ok []
  | fuel + 1, first, tokens => do
    let tokens := if first then tokens else tokens.dropWhile (· == .documentEnd)
    if tokens.isEmpty then return []
    let (root, s) ← (Reader.readDocument (3 * tokens.length + 3) first).run { tokens }
    let more ← readDocuments fuel false s.tokens
    return { root, size := s.size } :: more

/-- The **documents** that the tokens of a text spell. -/
def readTrees (tokens : List Token) : Except Error (List Document) :=
  readDocuments (tokens.length + 1) true tokens

end RegisterMap.Yaml
