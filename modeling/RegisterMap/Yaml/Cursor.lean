import RegisterMap.Yaml.Error

/-!
# Reading Positions in YAML Text

A cursor stands in front of the characters that are still to be read and knows its line and column.
Lines and columns count characters; how far the text has been read counts bytes of UTF-8. This
module holds the character classes of YAML and the moves of a cursor; every move forward leaves
fewer characters to read.
-/

namespace RegisterMap.Yaml

/-! ### Character classes -/

/-- A line break character. -/
def isBreak (c : Char) : Bool :=
  c = '\n' || c = '\r' || c = '\u0085' || c = '\u2028' || c = '\u2029'

/-- A space or a tab. -/
def isGap (c : Char) : Bool := c = ' ' || c = '\t'

/-- A character that can belong to a word. -/
def isInk (c : Char) : Bool := !isGap c && !isBreak c

/-- A character of names: letters, digits, `_` and `-`. -/
def isNameChar (c : Char) : Bool := c.isAlphanum || c = '_' || c = '-'

/-- A character that YAML text may contain. -/
def isAllowed (c : Char) : Bool :=
  let n := c.toNat
  n == 0x09 || n == 0x0A || n == 0x0D || (0x20 ≤ n && n ≤ 0x7E) || n == 0x85 ||
    (0xA0 ≤ n && n ≤ 0xD7FF) || (0xE000 ≤ n && n ≤ 0xFFFD) || 0x10000 ≤ n

/-- The byte order mark. -/
def isByteOrderMark (c : Char) : Bool := c = '\uFEFF'

/-- No character is next, or one that ends a word. -/
def endsWord (c : Option Char) : Bool := c.all fun c => isGap c || isBreak c

/-! ### Cursors -/

/-- How many bytes characters take. -/
def byteCount (cs : List Char) : Nat := cs.foldl (fun n c => n + c.utf8Size) 0

/-- A **reading position**. -/
structure Cursor where
  rest : List Char
  /-- How many bytes the whole text has. -/
  size : Nat
  /-- Bytes read so far. -/
  index : Nat := 0
  line : Nat := 0
  column : Nat := 0
deriving Repr, Inhabited

namespace Cursor

/-- The position in front of a text. -/
def ofChars (cs : List Char) : Cursor := { rest := cs, size := byteCount cs }

/-- One more than the number of bytes that are still to be read: enough **steps** to read the
characters one by one and to see the end. -/
def steps (c : Cursor) : Nat := c.size - c.index + 1

/-- The character `n` places ahead. -/
def peek (c : Cursor) (n : Nat) : Option Char := c.rest[n]?

/-- The next character. -/
def next? (c : Cursor) : Option Char := c.rest.head?

/-- The next character is `x`. -/
def sees (c : Cursor) (x : Char) : Bool := c.next? == some x

/-- The next character is one of `xs`. -/
def seesAny (c : Cursor) (xs : List Char) : Bool := c.next?.any xs.contains

/-- The next character is in the class. -/
def seesClass (c : Cursor) (p : Char → Bool) : Bool := c.next?.any p

/-- Move over one character of the line. -/
def advance (c : Cursor) : Cursor :=
  match c.rest with
  | [] => c
  | x :: rest => { c with rest, index := c.index + x.utf8Size, column := c.column + 1 }

/-- Move over `n` characters of the line. -/
def advanceBy (c : Cursor) : Nat → Cursor
  | 0 => c
  | n + 1 => c.advance.advanceBy n

/-- Move over a line break, and the text that it stands for: a line feed, or the Unicode line or
paragraph separator itself. -/
def takeBreak? (c : Cursor) : Option (List Char × Cursor) :=
  let nextLine (rest : List Char) (used : Nat) : Cursor :=
    { c with rest, index := c.index + used, line := c.line + 1, column := 0 }
  match c.rest with
  | '\r' :: '\n' :: rest => some (['\n'], nextLine rest 2)
  | x :: rest =>
    if x = '\u2028' || x = '\u2029' then some ([x], nextLine rest x.utf8Size)
    else if isBreak x then some (['\n'], nextLine rest x.utf8Size)
    else none
  | [] => none

/-- Move over the characters of a class, which holds no line breaks, and the characters read. -/
def takeClass (c : Cursor) (p : Char → Bool) : List Char × Cursor :=
  let taken := c.rest.takeWhile p
  (taken, { c with
    rest := c.rest.dropWhile p
    index := c.index + byteCount taken
    column := c.column + taken.length })

/-- Move to the next character outside the class. -/
def skipClass (c : Cursor) (p : Char → Bool) : Cursor := (c.takeClass p).2

/-- Move to the end of the line if a comment starts here. -/
def skipComment (c : Cursor) : Cursor :=
  if c.sees '#' then c.skipClass (!isBreak ·) else c

/-- Move over blanks, a comment and the line break that has to follow them. -/
def finishLine (c : Cursor) (problem : Error) : Except Error Cursor :=
  let c := (c.skipClass isGap).skipComment
  match c.next?, c.takeBreak? with
  | none, _ => .ok c
  | some _, some (_, c) => .ok c
  | some _, none => .error problem

/-- A marker of three characters `x` stands alone at the start of the line. -/
def seesMarker (c : Cursor) (x : Char) : Bool :=
  c.column == 0 && c.rest.take 3 == [x, x, x] && endsWord (c.peek 3)

/-- The start or the end of a document is marked here. -/
def atDocumentMarker (c : Cursor) : Bool := c.seesMarker '-' || c.seesMarker '.'

end Cursor

end RegisterMap.Yaml
