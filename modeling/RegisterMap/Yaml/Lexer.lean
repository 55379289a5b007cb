import RegisterMap.Yaml.Lexeme

/-!
# From YAML Text to Tokens

The lexer reads one token at a time. Block structure comes from columns: a token further to the left
than the current collection closes it, and a key, an item or a value further to the right opens one.
A
**simple key** is seen too late, at the colon behind it; each level of flow collections therefore
remembers where its last candidate stands among the tokens, and the colon inserts the marks of the
key there.

## Conventions

A simple key lies on one line and is at most 1024 bytes long. Column numbers start at zero; the
indentation outside all block collections is written `none`.
-/

namespace RegisterMap.Yaml

/-- A token that may turn out to **start a simple key**. -/
structure KeyCandidate where
  /-- How many tokens stand in front of it. -/
  position : Nat
  /-- A colon has to follow, because the block collection goes on only with a key. -/
  required : Bool
  index : Nat
  line : Nat
  column : Nat
deriving Repr, Inhabited

/-- The state of the **lexer** between two tokens. -/
structure Lexer where
  cursor : Cursor
  /-- The column of the innermost block collection. -/
  indent : Option Nat := none
  /-- The columns of the block collections around it, innermost first. -/
  outer : List (Option Nat) := []
  /-- The candidate of the innermost flow collection, or of the text outside of any. -/
  candidate : Option KeyCandidate := none
  /-- The candidates of the levels around it, one for each open flow collection. -/
  outerCandidates : List (Option KeyCandidate) := []
  /-- A simple key may start at the next token. -/
  keyAllowed : Bool := true
  tokens : Array Token := #[]
deriving Inhabited

namespace Lexer

/-- The position is inside a flow collection. -/
def inFlow (s : Lexer) : Bool := !s.outerCandidates.isEmpty

/-- Append a token. -/
def push (s : Lexer) (t : Token) : Lexer := { s with tokens := s.tokens.push t }

/-- Append a token that is `width` characters long. -/
def pushMark (s : Lexer) (t : Token) (width : Nat) : Lexer :=
  { s.push t with cursor := s.cursor.advanceBy width }

/-! ### Blanks -/

/-- Move over blanks, comments and line breaks. Outside flow collections a tab does not count as
blank where a key may start, and a new line lets one start. -/
def skipToToken : Nat → Lexer → Lexer
  | 0, s => s
  | fuel + 1, s =>
    let c := s.cursor
    let c := if c.column = 0 && c.seesClass isByteOrderMark then c.advance else c
    let tabs := s.inFlow || !s.keyAllowed
    let c := (c.skipClass fun x => x = ' ' || (tabs && x = '\t')).skipComment
    match c.takeBreak? with
    | some (_, c) =>
      skipToToken fuel { s with cursor := c, keyAllowed := s.keyAllowed || !s.inFlow }
    | none => { s with cursor := c }

/-! ### Simple keys -/

/-- A candidate too far behind the cursor for a simple key. -/
def isStale (c : Cursor) (k : KeyCandidate) : Bool := k.line < c.line || k.index + 1024 < c.index

/-- Forget the candidate of this level if it has become too old; it is an error when it had to be a
key. The candidates of the levels around it are looked at once their level is the innermost again.
-/
def dropStaleKey (s : Lexer) : Except Error Lexer :=
  match s.candidate with
  | none => .ok s
  | some k =>
    if !isStale s.cursor k then .ok s
    else if k.required then .error .missingColon
    else .ok { s with candidate := none }

/-- Forget the candidate of this level. -/
def removeKey (s : Lexer) : Except Error Lexer :=
  if s.candidate.any (·.required) then .error .missingColon else .ok { s with candidate := none }

/-- Remember that the next token may start a simple key, where one is allowed. -/
def saveKey (s : Lexer) : Except Error Lexer :=
  if !s.keyAllowed then .ok s
  else do
    let s ← s.removeKey
    let c := s.cursor
    let required := !s.inFlow && s.indent == some c.column
    let candidate : KeyCandidate :=
      { position := s.tokens.size, required, index := c.index, line := c.line, column := c.column }
    pure { s with candidate }

/-! ### Indentation -/

/-- Open a block collection at `column`, unless one is open there; its token goes in front of the
token at `position`. Flow collections have no indentation. -/
def openBlock (s : Lexer) (column position : Nat) (t : Token) : Lexer :=
  if s.inFlow || s.indent.any (column ≤ ·) then s
  else
    { s with
      indent := some column
      outer := s.indent :: s.outer
      tokens := s.tokens.insertIdxIfInBounds position t }

/-- Close the block collections that stand further to the right than `column`; all of them without
one. -/
def closeBlocks (column : Option Nat) : List (Option Nat) → Lexer → Lexer
  | [], s => s
  | enclosing :: rest, s =>
    if s.inFlow then s
    else
      let deeper : Bool := match s.indent, column with
        | some n, some column => column < n
        | some _, none => true
        | none, _ => false
      if deeper then
        closeBlocks column rest { s.push .blockEnd with indent := enclosing, outer := rest }
      else s

/-- Close the block collections that stand further to the right than `column`. -/
def unroll (s : Lexer) (column : Option Nat) : Lexer := closeBlocks column s.outer s

/-! ### Tokens -/

/-- Close everything in front of a directive, a document marker or the end of the text. -/
def endBlocks (s : Lexer) : Except Error Lexer := do
  let s ← (s.unroll none).removeKey
  pure { s with keyAllowed := false }

/-- A directive line. -/
def directive (s : Lexer) : Except Error Lexer := do
  let s ← s.endBlocks
  let (t, c) ← readDirective s.cursor
  pure { s.push t with cursor := c }

/-- The start or end marker of a document. -/
def documentMarker (s : Lexer) (t : Token) : Except Error Lexer := do
  let s ← s.endBlocks
  pure (s.pushMark t 3)

/-- An opening bracket or brace. -/
def openFlow (s : Lexer) (t : Token) : Except Error Lexer := do
  let s ← s.saveKey
  let s := s.pushMark t 1
  pure { s with
    candidate := none
    outerCandidates := s.candidate :: s.outerCandidates
    keyAllowed := true }

/-- A closing bracket or brace. -/
def closeFlow (s : Lexer) (t : Token) : Except Error Lexer := do
  let s ← s.removeKey
  let s := match s.outerCandidates with
    | k :: rest => { s with candidate := k, outerCandidates := rest }
    | [] => s
  pure { s.pushMark t 1 with keyAllowed := false }

/-- The comma of a flow collection. -/
def flowEntry (s : Lexer) : Except Error Lexer := do
  let s ← s.removeKey
  pure { s.pushMark .flowEntry 1 with keyAllowed := true }

/-- Open the block collection that a dash, a question mark or a colon belongs to. -/
def openAtMark (s : Lexer) (t : Token) : Except Error Lexer :=
  if s.inFlow then .ok s
  else if !s.keyAllowed then .error .misplacedIndicator
  else .ok (s.openBlock s.cursor.column s.tokens.size t)

/-- The dash of a block sequence. -/
def blockEntry (s : Lexer) : Except Error Lexer := do
  let s ← s.openAtMark .blockSequenceStart
  let s ← s.removeKey
  pure { s.pushMark .blockEntry 1 with keyAllowed := true }

/-- The question mark of an explicit key. -/
def explicitKey (s : Lexer) : Except Error Lexer := do
  let s ← s.openAtMark .blockMappingStart
  let s ← s.removeKey
  pure { s.pushMark .key 1 with keyAllowed := !s.inFlow }

/-- The colon of a value, behind a simple key or at the start of a line. -/
def valueMark (s : Lexer) : Except Error Lexer :=
  match s.candidate with
  | some k =>
    let s := { s with tokens := s.tokens.insertIdxIfInBounds k.position .key, candidate := none }
    let s := s.openBlock k.column k.position .blockMappingStart
    .ok { s.pushMark .value 1 with keyAllowed := false }
  | none => do
    let s ← s.openAtMark .blockMappingStart
    pure { s.pushMark .value 1 with keyAllowed := !s.inFlow }

/-- A part that may start a simple key, read by `read`. -/
def keyLexeme (s : Lexer) (read : Cursor → Except Error (Token × Cursor)) :
    Except Error Lexer := do
  let s ← s.saveKey
  let (t, c) ← read s.cursor
  pure { s.push t with cursor := c, keyAllowed := false }

/-- A block scalar. -/
def blockScalar (s : Lexer) (literal : Bool) : Except Error Lexer := do
  let s ← s.removeKey
  let (text, c) ← readBlock literal s.indent s.cursor
  pure { s.push (.scalar (String.ofList text) false) with cursor := c, keyAllowed := true }

/-- A quoted scalar. -/
def quotedScalar (s : Lexer) (quote : Char) : Except Error Lexer :=
  s.keyLexeme fun c => do
    let (text, c) ← readQuoted quote (c.steps + 1) [] c.advance
    pure (.scalar (String.ofList text) false, c)

/-- A plain scalar. A line break behind it lets a key start. -/
def plainScalar (s : Lexer) : Except Error Lexer := do
  let s ← s.saveKey
  let indent := match s.indent with
    | some n => n + 1
    | none => 0
  let (text, broken, c) ← readPlain s.inFlow indent s.cursor.steps [] {} s.cursor
  pure { s.push (.scalar (String.ofList text.reverse) true) with cursor := c, keyAllowed := broken }

/-- The characters that start no plain scalar. -/
def marks : List Char :=
  ['-', '?', ':', ',', '[', ']', '{', '}', '#', '&', '*', '!', '|', '>', '\'', '"', '%', '@', '`']

/-- A **plain scalar** starts at the cursor, whose next character is `x`. -/
def startsPlain (s : Lexer) (x : Char) : Bool :=
  let second := s.cursor.peek 1
  (isInk x && !marks.contains x) || (x = '-' && !second.any isGap) ||
    (!s.inFlow && (x = '?' || x = ':') && !endsWord second)

/-- Read the token that starts with `x` at the cursor. -/
def token (s : Lexer) (x : Char) : Except Error Lexer :=
  let alone := endsWord (s.cursor.peek 1)
  if s.cursor.column = 0 && x = '%' then s.directive
  else if s.cursor.seesMarker '-' then s.documentMarker .documentStart
  else if s.cursor.seesMarker '.' then s.documentMarker .documentEnd
  else if x = '[' then s.openFlow .flowSequenceStart
  else if x = '{' then s.openFlow .flowMappingStart
  else if x = ']' then s.closeFlow .flowSequenceEnd
  else if x = '}' then s.closeFlow .flowMappingEnd
  else if x = ',' then s.flowEntry
  else if x = '-' && alone then s.blockEntry
  else if x = '?' && (s.inFlow || alone) then s.explicitKey
  else if x = ':' && (s.inFlow || alone) then s.valueMark
  else if x = '*' then s.keyLexeme fun c => do
    let (name, c) ← readAnchorName c
    pure (.alias name, c)
  else if x = '&' then s.keyLexeme fun c => do
    let (name, c) ← readAnchorName c
    pure (.anchor name, c)
  else if x = '!' then s.keyLexeme (readTag s.inFlow)
  else if x = '|' && !s.inFlow then s.blockScalar true
  else if x = '>' && !s.inFlow then s.blockScalar false
  else if x = '\'' || x = '"' then s.quotedScalar x
  else if s.startsPlain x then s.plainScalar
  else .error .unexpectedCharacter

/-- Close what is open at the end of the text. -/
def finish (s : Lexer) : Except Error Lexer := s.endBlocks

/-- Read tokens to the end of the text. Every token but those of the end takes a character. -/
def run : Nat → Lexer → Except Error Lexer
  | 0, s => s.finish
  | fuel + 1, s => do
    let s := skipToToken s.cursor.steps s
    let s ← s.dropStaleKey
    let s := s.unroll (some s.cursor.column)
    match s.cursor.next? with
    | none => s.finish
    | some x => do
      let s ← s.token x
      run fuel s

end Lexer

/-- The **tokens of a text**. -/
def tokenize (text : String) : Except Error (List Token) := do
  let cs := text.toList
  if !cs.all isAllowed then throw .forbiddenCharacter
  let s ← Lexer.run (cs.length + 1) { cursor := .ofChars cs }
  pure s.tokens.toList

end RegisterMap.Yaml
