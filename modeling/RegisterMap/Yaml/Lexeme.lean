import RegisterMap.Text.Numeral
import RegisterMap.Yaml.Cursor
import RegisterMap.Yaml.Token

/-!
# Scalars, Names and Tags in YAML Text

The parts of YAML text that are longer than a mark: plain, quoted and block scalars with their rules
for folding lines, anchors, tags and directives. Each reader starts at the first character of its
part and ends behind the last one.

## Conventions

Readers with an argument `fuel` read at least one character for each unit of it; the functions that
call them provide `Cursor.steps` of them, one more than there are characters.
-/

namespace RegisterMap.Yaml

/-! ### Folding -/

/-- What stands **between two words** of a scalar: blanks within a line, or line breaks. -/
structure Gap where
  /-- The gap reaches into another line. -/
  broken : Bool := false
  /-- The blanks of a gap that stays on its line. -/
  blanks : List Char := []
  /-- The first line break. -/
  first : List Char := []
  /-- The line breaks after the first. -/
  more : List Char := []
deriving Repr, Inhabited

namespace Gap

/-- The text that a gap becomes: a single line feed is **folded** into a space, and is left out in
front of further breaks. -/
def folded (g : Gap) : List Char :=
  if !g.broken then g.blanks
  else if g.first = ['\n'] then if g.more.isEmpty then [' '] else g.more
  else g.first ++ g.more

/-- The gap with one more line break. -/
def addBreak (g : Gap) (text : List Char) : Gap :=
  if g.broken then { g with more := g.more ++ text }
  else { broken := true, blanks := [], first := text, more := [] }

/-- The gap with one more blank; blanks at the start of a line do not count. -/
def addBlank (g : Gap) (c : Char) : Gap :=
  if g.broken then g else { g with blanks := g.blanks ++ [c] }

end Gap

/-- Read blanks and line breaks. A tab in front of column `indent` of a later line is an error. -/
def readGap (indent : Nat) : Nat → Gap → Cursor → Except Error (Gap × Cursor)
  | 0, gap, c => .ok (gap, c)
  | fuel + 1, gap, c =>
    match c.next? with
    | none => .ok (gap, c)
    | some x =>
      if isGap x then
        if gap.broken && c.column < indent && x = '\t' then .error .tabIndentation
        else readGap indent fuel (gap.addBlank x) c.advance
      else match c.takeBreak? with
        | some (text, c) => readGap indent fuel (gap.addBreak text) c
        | none => .ok (gap, c)

/-! ### Plain scalars -/

/-- The flow indicators that end a plain scalar inside a flow collection. -/
def flowMarks : List Char := [',', '[', ']', '{', '}']

/-- Read the characters of a plain scalar up to a blank, a line break or an indicator. `acc` holds
the characters so far, last one first. -/
def readPlainWord (inFlow : Bool) : Nat → List Char → Cursor → Except Error (List Char × Cursor)
  | 0, acc, c => .ok (acc, c)
  | fuel + 1, acc, c =>
    match c.next? with
    | none => .ok (acc, c)
    | some x =>
      if !isInk x then .ok (acc, c)
      else if inFlow && x = ':' && (c.peek 1).any ('?' :: flowMarks).contains then
        .error .colonInFlow
      else if (x = ':' && endsWord (c.peek 1)) || (inFlow && flowMarks.contains x) then
        .ok (acc, c)
      else readPlainWord inFlow fuel (x :: acc) c.advance

/-- Read a **plain scalar**: words with folded gaps between them. Outside flow collections it ends
where a line is indented less than `indent`. The answer tells whether a line break follows the last
word. -/
def readPlain (inFlow : Bool) (indent : Nat) :
    Nat → List Char → Gap → Cursor → Except Error (List Char × Bool × Cursor)
  | 0, acc, gap, c => .ok (acc, gap.broken, c)
  | fuel + 1, acc, gap, c => do
    if c.atDocumentMarker || c.sees '#' then return (acc, gap.broken, c)
    let (word, c) ← readPlainWord inFlow c.steps [] c
    let (acc, gap) :=
      if word.isEmpty then (acc, gap) else (word ++ gap.folded.reverse ++ acc, {})
    if !c.seesClass (fun x => isGap x || isBreak x) then return (acc, gap.broken, c)
    let (gap, c) ← readGap indent c.steps gap c
    if !inFlow && c.column < indent then return (acc, gap.broken, c)
    readPlain inFlow indent fuel acc gap c

/-! ### Quoted scalars -/

/-- The character that a backslash and `c` stand for. -/
def escapeOf? (c : Char) : Option Char :=
  match c with
  | '0' => some '\x00'
  | 'a' => some '\x07'
  | 'b' => some '\x08'
  | 't' | '\t' => some '\t'
  | 'n' => some '\n'
  | 'v' => some '\x0b'
  | 'f' => some '\x0c'
  | 'r' => some '\r'
  | 'e' => some '\x1b'
  | ' ' => some ' '
  | '"' => some '"'
  | '/' => some '/'
  | '\\' => some '\\'
  | 'N' => some '\u0085'
  | '_' => some '\u00a0'
  | 'L' => some '\u2028'
  | 'P' => some '\u2029'
  | _ => none

/-- How many hexadecimal digits follow the escape `c`. -/
def escapeDigits? (c : Char) : Option Nat :=
  match c with
  | 'x' => some 2
  | 'u' => some 4
  | 'U' => some 8
  | _ => none

/-- The character with this number, unless it is half of a surrogate pair or too large. -/
def charOfNumber? (n : Nat) : Option Char :=
  if n.isValidChar then some (.ofNat n) else none

/-- Read an escape that starts at its backslash. -/
def readEscape (c : Cursor) : Except Error (Char × Cursor) :=
  match c.peek 1 with
  | none => .error .badEscape
  | some e =>
    match escapeOf? e, escapeDigits? e with
    | some x, _ => .ok (x, c.advanceBy 2)
    | none, some count =>
      let c := c.advanceBy 2
      let digits := c.rest.take count
      match if digits.length = count then Text.ofDigits? 16 digits else none with
      | none => .error .badEscape
      | some n =>
        match charOfNumber? n with
        | some x => .ok (x, c.advanceBy count)
        | none => .error .badEscape
    | none, none => .error .badEscape

/-- What ended a run of characters inside quotes. -/
inductive WordEnd where
  /-- A blank, a line break or the closing quote. -/
  | plain
  /-- A line break behind a backslash, which joins the lines. -/
  | joined
deriving Repr, DecidableEq

/-- Read the characters of a quoted scalar up to a blank, a line break or the closing quote. -/
def readQuotedWord (quote : Char) :
    Nat → List Char → Cursor → Except Error (List Char × WordEnd × Cursor)
  | 0, acc, c => .ok (acc, .plain, c)
  | fuel + 1, acc, c =>
    match c.next? with
    | none => .ok (acc, .plain, c)
    | some x =>
      if !isInk x then .ok (acc, .plain, c)
      else if quote = '\'' && x = '\'' && c.peek 1 == some '\'' then
        readQuotedWord quote fuel ('\'' :: acc) (c.advanceBy 2)
      else if x = quote then .ok (acc, .plain, c)
      else if quote = '"' && x = '\\' then
        match c.advance.takeBreak? with
        | some (_, c) => .ok (acc, .joined, c)
        | none =>
          match readEscape c with
          | .ok (y, c) => readQuotedWord quote fuel (y :: acc) c
          | .error e => .error e
      else readQuotedWord quote fuel (x :: acc) c.advance

/-- Read a **quoted scalar** behind its opening quote, up to and with its closing one. -/
def readQuoted (quote : Char) : Nat → List Char → Cursor → Except Error (List Char × Cursor)
  | 0, _, _ => .error .unclosedQuote
  | fuel + 1, acc, c => do
    if c.atDocumentMarker then throw .unclosedQuote
    if c.next?.isNone then throw .unclosedQuote
    let (acc, ending, c) ← readQuotedWord quote c.steps acc c
    if c.sees quote then return (acc.reverse, c.advance)
    let start : Gap := { broken := ending == .joined }
    let (gap, c) ← readGap 0 c.steps start c
    readQuoted quote fuel (gap.folded.reverse ++ acc) c

/-! ### Block scalars -/

/-- What happens to the line breaks at the **end of a block scalar**. -/
inductive Chomping where
  | strip
  | clip
  | keep
deriving Repr, DecidableEq, Inhabited

/-- The chomping that a header character asks for. -/
def chompingOf? (c : Cursor) : Option Chomping :=
  if c.sees '+' then some .keep else if c.sees '-' then some .strip else none

/-- Read an indentation digit of a block header, if there is one; zero is not allowed. -/
def readIncrement (c : Cursor) : Except Error (Nat × Cursor) :=
  match c.next? with
  | some x =>
    if !x.isDigit then .ok (0, c)
    else if x = '0' then .error .badBlockHeader
    else .ok (x.toNat - '0'.toNat, c.advance)
  | none => .ok (0, c)

/-- Read the header of a block scalar behind its first character: chomping and indentation, in
either order, and the rest of the line. -/
def readBlockHeader (c : Cursor) : Except Error (Chomping × Nat × Cursor) := do
  let (chomping, increment, c) ← match chompingOf? c with
    | some chomping => do
      let (increment, c) ← readIncrement c.advance
      pure (chomping, increment, c)
    | none => do
      let (increment, c) ← readIncrement c
      match if increment = 0 then none else chompingOf? c with
      | some chomping => pure (chomping, increment, c.advance)
      | none => pure (Chomping.clip, increment, c)
  let c ← c.finishLine .badBlockHeader
  pure (chomping, increment, c)

/-- Move over indentation: spaces up to column `indent`, or all of them when it is not known. -/
def skipIndentation (indent : Option Nat) (c : Cursor) : Cursor :=
  let spaces := (c.rest.takeWhile (· = ' ')).length
  c.advanceBy (match indent with
    | some n => min spaces (n - c.column)
    | none => spaces)

/-- Read indentation and empty lines. The answer holds the breaks of the empty lines and the deepest
indentation seen. -/
def readEmptyLines (indent : Option Nat) :
    Nat → List Char → Nat → Cursor → Except Error (List Char × Nat × Cursor)
  | 0, breaks, deepest, c => .ok (breaks, deepest, c)
  | fuel + 1, breaks, deepest, c =>
    let c := skipIndentation indent c
    let deepest := max deepest c.column
    if indent.all (c.column < ·) && c.sees '\t' then .error .tabIndentation
    else match c.takeBreak? with
      | some (text, c) => readEmptyLines indent fuel (breaks ++ text) deepest c
      | none => .ok (breaks, deepest, c)

/-- The lines of a block scalar that are read so far. -/
structure BlockText where
  /-- The text, last character first. -/
  text : List Char := []
  /-- The line break behind the last line. -/
  leading : List Char := []
  /-- The breaks of the empty lines behind it. -/
  trailing : List Char := []
  /-- The last line starts with a blank. -/
  startsBlank : Bool := false
deriving Repr, Inhabited

/-- Read the lines of a block scalar that are indented by `indent`. -/
def readBlockLines (literal : Bool) (indent : Nat) :
    Nat → BlockText → Cursor → Except Error BlockText × Cursor
  | 0, b, c => (.ok b, c)
  | fuel + 1, b, c =>
    if c.column != indent || c.next?.isNone then (.ok b, c)
    else
      let blank := c.seesClass isGap
      let fold := !literal && b.leading == ['\n'] && !b.startsBlank && !blank
      let joint :=
        if fold then if b.trailing.isEmpty then [' '] else [] else b.leading
      let (line, c) := c.takeClass (!isBreak ·)
      let text := line.reverse ++ (joint ++ b.trailing).reverse ++ b.text
      let (leading, c) := (c.takeBreak?).getD ([], c)
      match readEmptyLines (some indent) c.steps [] 0 c with
      | .error e => (.error e, c)
      | .ok (trailing, _, c) =>
        readBlockLines literal indent fuel { text, leading, trailing, startsBlank := blank } c

/-- Read a **block scalar** that starts at its first character. `parent` is the indentation of the
collection around it, if there is one. -/
def readBlock (literal : Bool) (parent : Option Nat) (c : Cursor) :
    Except Error (List Char × Cursor) := do
  let (chomping, increment, c) ← readBlockHeader c.advance
  let known := if increment = 0 then none else some (parent.getD 0 + increment)
  let (trailing, deepest, c) ← readEmptyLines known c.steps [] 0 c
  let least := match parent with
    | some n => n + 1
    | none => 1
  let indent := known.getD (max deepest least)
  let (lines, c) := readBlockLines literal indent c.steps { trailing } c
  let b ← lines
  let tail := match chomping with
    | .strip => []
    | .clip => b.leading
    | .keep => b.leading ++ b.trailing
  pure (b.text.reverse ++ tail, c)

/-! ### Anchors and tags -/

/-- Read the **name** of an anchor or an alias, which starts at its mark. -/
def readAnchorName (c : Cursor) : Except Error (String × Cursor) :=
  let (name, c) := c.advance.takeClass isNameChar
  let ends := endsWord c.next? || c.seesAny ['?', ':', ',', ']', '}', '%', '@', '`']
  if name.isEmpty || !ends then .error .badAnchor else .ok (String.ofList name, c)

/-- A character of a tag, or the start of an escaped one. The last three occur only between angle
brackets and in directives. -/
def isTagChar (verbatim : Bool) (c : Char) : Bool :=
  isNameChar c || [';', '/', '?', ':', '@', '&', '=', '+', '$', '.', '%', '!', '~', '*', '\'', '(',
    ')'].contains c || (verbatim && [',', '[', ']'].contains c)

/-- Read the percent escape of one byte. -/
def readEscapedByte (c : Cursor) : Except Error (UInt8 × Cursor) :=
  let digits := (c.rest.drop 1).take 2
  match if c.sees '%' && digits.length = 2 then Text.ofDigits? 16 digits else none with
  | some n => .ok (n.toUInt8, c.advanceBy 3)
  | none => .error .badTag

/-- Read the escapes of `n` bytes that continue a character. -/
def readFollowingBytes : Nat → TagBytes → Cursor → Except Error (TagBytes × Cursor)
  | 0, acc, c => .ok (acc, c)
  | n + 1, acc, c => do
    let (byte, c) ← readEscapedByte c
    if !isFollowingByte byte then throw .badTag
    readFollowingBytes n (acc ++ [byte]) c

/-- Read the escapes of the bytes of one character; the first byte tells how many there are. -/
def readEscapedBytes (c : Cursor) : Except Error (TagBytes × Cursor) := do
  let (first, c) ← readEscapedByte c
  match followingBytes? first with
  | some n => readFollowingBytes n [first] c
  | none => throw .badTag

/-- Read the bytes of a tag. `acc` holds the bytes so far, last one first. -/
def readTagBytes (verbatim : Bool) : Nat → TagBytes → Cursor → Except Error (TagBytes × Cursor)
  | 0, acc, c => .ok (acc.reverse, c)
  | fuel + 1, acc, c =>
    match c.next? with
    | none => .ok (acc.reverse, c)
    | some x =>
      if !isTagChar verbatim x then .ok (acc.reverse, c)
      else if x = '%' then
        match readEscapedBytes c with
        | .error e => .error e
        | .ok (bytes, c) => readTagBytes verbatim fuel (bytes.reverse ++ acc) c
      else readTagBytes verbatim fuel (TagBytes.ofChars [x] ++ acc) c.advance

/-- Read a handle: an exclamation mark, name characters, and another mark if there is one. -/
def readHandle (c : Cursor) : Except Error (List Char × Cursor) :=
  if !c.sees '!' then .error .badTag
  else
    let (name, c) := c.advance.takeClass isNameChar
    if c.sees '!' then .ok ('!' :: name ++ ['!'], c.advance) else .ok ('!' :: name, c)

/-- Read a **tag** in one of its three forms: between angle brackets, behind a handle, or behind a
single exclamation mark. A lone exclamation mark is a tag of its own. -/
def readTag (inFlow : Bool) (c : Cursor) : Except Error (Token × Cursor) := do
  let (token, c) ←
    if c.peek 1 == some '<' then do
      let c := c.advanceBy 2
      let (name, c) ← readTagBytes true c.steps [] c
      if name.isEmpty || !c.sees '>' then throw .badTag
      pure (Token.tag "" name.untilZero, c.advance)
    else do
      let (handle, c) ← readHandle c
      let (bytes, c) ← readTagBytes false c.steps [] c
      if handle.length ≥ 2 && handle.getLast? == some '!' then
        if bytes.isEmpty then throw .badTag
        pure (Token.tag (String.ofList handle) bytes.untilZero, c)
      else
        let suffix := (TagBytes.ofChars (handle.drop 1) ++ bytes).untilZero
        if suffix.isEmpty then pure (Token.tag "" (TagBytes.ofChars ['!']), c)
        else pure (Token.tag "!" suffix, c)
  if endsWord c.next? || (inFlow && c.sees ',') then pure (token, c) else throw .badTag

/-! ### Directives -/

/-- Read a number of at most nine digits. -/
def readVersionNumber (c : Cursor) : Except Error (Nat × Cursor) :=
  let (digits, c) := c.takeClass Char.isDigit
  match Text.ofDigits? 10 digits with
  | some n => if digits.length ≤ 9 then .ok (n, c) else .error .badDirective
  | none => .error .badDirective

/-- Read a **directive**, which starts at its percent sign and takes the rest of its line. -/
def readDirective (c : Cursor) : Except Error (Token × Cursor) := do
  let (name, c) := c.advance.takeClass isNameChar
  if !endsWord c.next? then throw .badDirective
  let c := c.skipClass isGap
  let (token, c) ←
    if name = ['Y', 'A', 'M', 'L'] then do
      let (major, c) ← readVersionNumber c
      if !c.sees '.' then throw .badDirective
      let (minor, c) ← readVersionNumber c.advance
      pure (Token.versionDirective major minor, c)
    else if name = ['T', 'A', 'G'] then do
      let (handle, c) ← readHandle c
      if handle != ['!'] && (handle.length < 2 || handle.getLast? != some '!') then
        throw .badDirective
      if !c.seesClass isGap then throw .badDirective
      let c := c.skipClass isGap
      let (start, c) ← readTagBytes true c.steps [] c
      if start.isEmpty || !endsWord c.next? then throw .badDirective
      pure (Token.tagDirective (String.ofList handle) start.untilZero, c)
    else throw .badDirective
  let c ← c.finishLine .badDirective
  pure (token, c)

end RegisterMap.Yaml
