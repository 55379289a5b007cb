import RegisterMap.Text.Numeral
import RegisterMap.Toml.Scalar
import RegisterMap.Toml.Table

/-!
# Reading TOML Text

A document is a list of lines: headers, keys with their values, comments and empty lines. Arrays may
go on over several lines, and so may two of the four kinds of strings; inline tables stay on one
line.

## Conventions

A reader takes the characters that are left and gives what it read with the characters after that;
it gives nothing where the text is no TOML.
-/

namespace RegisterMap.Toml

/-! ### Blanks and line ends -/

def isBlank (c : Char) : Bool := c = ' ' || c = '\t'

def skipBlanks (cs : List Char) : List Char := cs.dropWhile isBlank

/-- The rest of a line end; the end of the text has none. -/
def readNewline? : List Char → Option (List Char)
  | '\n' :: rest => some rest
  | '\r' :: '\n' :: rest => some rest
  | _ => none

/-- The rest behind a comment, if there is one. -/
def skipComment? : List Char → Option (List Char)
  | '#' :: cs =>
    let comment := cs.takeWhile fun c => c != '\n' && c != '\r'
    if comment.all isTextChar then some (cs.drop comment.length) else none
  | cs => some cs

/-- The rest behind blanks, a comment and a line end or the end of the text. -/
def endLine? (cs : List Char) : Option (List Char) := do
  let rest ← skipComment? (skipBlanks cs)
  if rest.isEmpty then some [] else readNewline? rest

/-- The rest behind blanks, comments and line ends. -/
def skipLines? : Nat → List Char → Option (List Char)
  | 0, cs => some cs
  | fuel + 1, cs => do
    let rest ← skipComment? (skipBlanks cs)
    match readNewline? rest with
    | some rest => skipLines? fuel rest
    | none => some rest

/-! ### Keys -/

/-- One part of a key: bare or quoted. -/
def readKeyPart? (cs : List Char) : Option (String × List Char) :=
  match cs with
  | '"' :: rest => readBasic? (rest.length + 1) [] rest
  | '\'' :: rest => readLiteral? rest
  | _ =>
    let bare := cs.takeWhile isBareKeyChar
    if bare.isEmpty then none else some (String.ofList bare, cs.drop bare.length)

/-- The parts of a key, of which there is at least one, with points between them. -/
def readKeyParts? : Nat → List Char → Option (List String × List Char)
  | 0, _ => none
  | fuel + 1, cs => do
    let (part, rest) ← readKeyPart? (skipBlanks cs)
    match skipBlanks rest with
    | '.' :: rest => do
      let (parts, rest) ← readKeyParts? fuel rest
      return (part :: parts, rest)
    | rest => return ([part], rest)

/-- How many parts a key may have, and how deep arrays and inline tables may nest. -/
def maxDepth : Nat := 79

/-- Read a **key**. -/
def readKey? (cs : List Char) : Option (List String × List Char) := do
  let (parts, rest) ← readKeyParts? (cs.length + 1) cs
  guard (parts.length ≤ maxDepth)
  return (parts, rest)

/-- The parts of a key but the last, and the last. -/
def splitKey (parts : List String) : List String × String := (parts.dropLast, parts.getLastD "")

/-! ### Values -/

mutual

/-- Read a **value** that holds at most `depth` levels of arrays and inline tables. Each unit of
`fuel` allows for a step into a value or to its next part. -/
def readValue? : Nat → Nat → List Char → Option (Value × List Char)
  | 0, _, _ => none
  | fuel + 1, depth, cs =>
    match cs, depth with
    | '"' :: '"' :: '"' :: rest, _ => do
      let (s, rest) ← readLongBasic? (rest.length + 1) [] (skipFirstNewline rest)
      return (.str s, rest)
    | '\'' :: '\'' :: '\'' :: rest, _ => do
      let (s, rest) ← readLongLiteral? [] (skipFirstNewline rest)
      return (.str s, rest)
    | '"' :: rest, _ => do
      let (s, rest) ← readBasic? (rest.length + 1) [] rest
      return (.str s, rest)
    | '\'' :: rest, _ => do
      let (s, rest) ← readLiteral? rest
      return (.str s, rest)
    | '[' :: _, 0 | '{' :: _, 0 => none
    | '[' :: rest, depth + 1 => readItems? fuel depth [] rest
    | '{' :: rest, depth + 1 =>
      match skipBlanks rest with
      | '}' :: rest => some (.table [], rest)
      | rest => readPairs? fuel depth [] rest
    | _, _ => readBareValue? cs

/-- Read the items of an array up to its closing bracket. -/
def readItems? : Nat → Nat → List Value → List Char → Option (Value × List Char)
  | 0, _, _, _ => none
  | fuel + 1, depth, acc, cs => do
    match ← skipLines? (cs.length + 1) cs with
    | ']' :: rest => return (.arr acc.reverse, rest)
    | rest => do
      let (item, rest) ← readValue? fuel depth rest
      match ← skipLines? (rest.length + 1) rest with
      | ',' :: rest => readItems? fuel depth (item :: acc) rest
      | ']' :: rest => return (.arr (item :: acc).reverse, rest)
      | _ => none

/-- Read the pairs of an inline table, of which there is at least one, up to its closing brace. -/
def readPairs? : Nat → Nat → Nodes → List Char → Option (Value × List Char)
  | 0, _, _, _ => none
  | fuel + 1, depth, acc, cs => do
    let (parts, rest) ← readKey? cs
    match rest with
    | '=' :: rest => do
      let (value, rest) ← readValue? fuel depth (skipBlanks rest)
      let (path, key) := splitKey parts
      let acc ← acc.define key (.value value) path
      match skipBlanks rest with
      | ',' :: rest => readPairs? fuel depth acc rest
      | '}' :: rest => return (.table (Node.finishEntries acc), rest)
      | _ => none
    | _ => none

end

/-! ### Documents -/

/-- A document **so far**: its tables, and the table that keys belong to now. -/
structure Reader where
  nodes : Nodes := []
  path : List String := []
deriving Inhabited

namespace Reader

/-- Read a header after its opening bracket or brackets. -/
def readHeader? (r : Reader) (ofArray : Bool) (cs : List Char) : Option (Reader × List Char) := do
  let (parts, rest) ← readKey? cs
  let rest ← match ofArray, rest with
    | false, ']' :: rest => some rest
    | true, ']' :: ']' :: rest => some rest
    | _, _ => none
  let (path, key) := splitKey parts
  let nodes ←
    if ofArray then r.nodes.openElement path key else r.nodes.openTable path key
  return ({ nodes, path := parts }, ← endLine? rest)

/-- Read a key and its value. -/
def readPair? (r : Reader) (cs : List Char) : Option (Reader × List Char) := do
  let (parts, rest) ← readKey? cs
  match rest with
  | '=' :: rest => do
    let (value, rest) ← readValue? (2 * rest.length + 2) maxDepth (skipBlanks rest)
    let (path, key) := splitKey parts
    let nodes ← r.nodes.inTable (Nodes.define key (.value value) path) r.path
    return ({ r with nodes }, ← endLine? rest)
  | _ => none

/-- Read the lines of a document; `fuel` bounds their number. -/
def readLines? : Nat → Reader → List Char → Option Reader
  | 0, _, _ => none
  | fuel + 1, r, cs => do
    match ← skipLines? (cs.length + 1) cs with
    | [] => return r
    | '[' :: '[' :: rest => do
      let (r, rest) ← r.readHeader? true rest
      readLines? fuel r rest
    | '[' :: rest => do
      let (r, rest) ← r.readHeader? false rest
      readLines? fuel r rest
    | rest => do
      let (r, rest) ← r.readPair? rest
      readLines? fuel r rest

end Reader

/-- Read a **TOML document**: the entries of its root table. -/
def parse (text : String) : Option Entries := do
  let cs := match text.toList with
    | '\uFEFF' :: rest => rest
    | cs => cs
  let r ← Reader.readLines? (cs.length + 1) {} cs
  return Node.finishEntries r.nodes

end RegisterMap.Toml
