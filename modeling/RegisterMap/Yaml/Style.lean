import RegisterMap.Yaml.Cursor
import RegisterMap.Yaml.Scalar

/-!
# The Styles of Strings

A string in YAML text is written **plain** where that is read back as the same string. A text of
several lines is written as a literal block. Where these styles cannot hold the characters, single
quotes are taken, and double quotes with escapes where single quotes cannot hold them either.
-/

namespace RegisterMap.Yaml

/-- The **styles** in which a string may be written. -/
inductive Style where
  | plain
  | singleQuoted
  | doubleQuoted
  | literal
deriving Repr, DecidableEq, Inhabited

namespace Style

/-! ### What characters rule out -/

/-- A character that is written as it is in every style. -/
def isPrintable (c : Char) : Bool :=
  isAllowed c && c ∉ ['\t', '\r', '\u0085', '\uFEFF']

/-- Two neighbours are in the one class and in the other. -/
def hasPair (p q : Char → Bool) : List Char → Bool
  | a :: b :: rest => (p a && q b) || hasPair p q (b :: rest)
  | _ => false

/-- The characters that mean something at the start of a scalar, whatever follows. -/
def marks : List Char :=
  ['#', ',', '[', ']', '\x7b', '\x7d', '&', '*', '!', '|', '>', '\'', '"', '%', '@', '\x60']

/-- The start is not the start of a plain scalar. -/
def startsWithMark : List Char → Bool
  | [] => false
  | '-' :: '-' :: '-' :: _ | '.' :: '.' :: '.' :: _ => true
  | c :: rest => marks.contains c || (['-', '?', ':'].contains c && endsWord rest.head?)

/-- A colon or a number sign ends a plain scalar somewhere behind its first character. -/
def holdsMark : List Char → Bool
  | a :: b :: rest =>
    (b = ':' && endsWord rest.head?) || (b = '#' && endsWord (some a)) || holdsMark (b :: rest)
  | _ => false

/-- Only double quotes can hold the characters. -/
def needsEscapes (cs : List Char) : Bool := !cs.all isPrintable || hasPair (· = ' ') isBreak cs

/-- **Single quotes** can hold the characters. -/
def fitsSingleQuotes (cs : List Char) : Bool :=
  !needsEscapes cs && !hasPair isBreak (· = ' ') cs

/-- A **literal block** can hold the characters. -/
def fitsLiteral (cs : List Char) : Bool := !needsEscapes cs && cs.getLast? != some ' '

/-- A **plain scalar** can hold the characters. -/
def fitsPlain (cs : List Char) : Bool :=
  fitsSingleQuotes cs && !cs.any isBreak && cs.head? != some ' ' && cs.getLast? != some ' ' &&
    !startsWithMark cs && !holdsMark cs

/-- The plain text would be read back as a string, and not as a number with zeros in front by other
readers. -/
def staysString (s : String) : Bool :=
  match plainValue s with
  | .ok (.str _) => !isZeroPadded s.toList
  | _ => false

/-- The style of a string on one line. -/
def inLine (s : String) : Style :=
  let cs := s.toList
  if staysString s && fitsPlain cs then .plain
  else if fitsSingleQuotes cs then .singleQuoted
  else .doubleQuoted

/-- The **style of a string**. -/
def ofString (s : String) : Style :=
  let cs := s.toList
  if cs.contains '\n' then if fitsLiteral cs then .literal else .doubleQuoted
  else inLine s

end Style

/-! ### The text of a string -/

/-- So many spaces. -/
def spaces (n : Nat) : List Char := List.replicate n ' '

/-- The characters with spaces at the start of every line that is not empty; `atStart` tells whether
they start at the start of a line. -/
def indentLines (indent : Nat) : Bool → List Char → List Char
  | _, [] => []
  | atStart, c :: cs =>
    if isBreak c then c :: indentLines indent true cs
    else (if atStart then spaces indent else []) ++ c :: indentLines indent false cs

/-- The text ends with a line break. -/
def endsWithBreak (cs : List Char) : Bool := cs.getLast?.any isBreak

/-- A string in **single quotes**, which are doubled inside. -/
def inSingleQuotes (indent : Nat) (cs : List Char) : List Char :=
  let doubled := cs.flatMap fun c => if c = '\'' then ['\'', '\''] else [c]
  '\'' :: indentLines indent false doubled ++
    (if endsWithBreak cs then spaces indent else []) ++ ['\'']

/-- Capital hexadecimal digits, at least `width` of them. -/
def escapeNumber (width n : Nat) : List Char :=
  ((Text.padLeft '0' width (Text.hexDigits n)).toList).map Char.toUpper

/-- A character in double quotes. -/
def escaped (c : Char) : List Char :=
  if c = '"' then ['\\', '"']
  else if c = '\\' then ['\\', '\\']
  else if Style.isPrintable c && !isBreak c then [c]
  else if c = '\x00' then ['\\', '0']
  else if c = '\x07' then ['\\', 'a']
  else if c = '\x08' then ['\\', 'b']
  else if c = '\t' then ['\\', 't']
  else if c = '\n' then ['\\', 'n']
  else if c = '\x0b' then ['\\', 'v']
  else if c = '\x0c' then ['\\', 'f']
  else if c = '\r' then ['\\', 'r']
  else if c = '\x1b' then ['\\', 'e']
  else if c = '\u0085' then ['\\', 'N']
  else if c = '\u2028' then ['\\', 'L']
  else if c = '\u2029' then ['\\', 'P']
  else if c.toNat ≤ 0xFF then '\\' :: 'x' :: escapeNumber 2 c.toNat
  else if c.toNat ≤ 0xFFFF then '\\' :: 'u' :: escapeNumber 4 c.toNat
  else '\\' :: 'U' :: escapeNumber 8 c.toNat

/-- A string in **double quotes**. -/
def inDoubleQuotes (cs : List Char) : List Char := '"' :: cs.flatMap escaped ++ ['"']

/-- The head of a literal block: an indentation hint if the text starts with a blank, and what
becomes of the line breaks at its end. -/
def literalHead (cs : List Char) : List Char :=
  let hint := if cs.head?.any fun c => c = ' ' || isBreak c then ['2'] else []
  let chomping :=
    match cs.reverse with
    | last :: before =>
      if !isBreak last then ['-'] else if before.head?.all isBreak then ['+'] else []
    | [] => ['-']
  '|' :: hint ++ chomping

/-- A string as a **literal block**, whose lines are indented. -/
def literalBlock (indent : Nat) (cs : List Char) : List Char :=
  literalHead cs ++ '\n' :: indentLines indent true cs

/-- A string in a style; further lines are indented. -/
def Style.write (indent : Nat) (style : Style) (s : String) : String :=
  match style with
  | .plain => s
  | .singleQuoted => String.ofList (inSingleQuotes indent s.toList)
  | .doubleQuoted => String.ofList (inDoubleQuotes s.toList)
  | .literal => String.ofList (literalBlock indent s.toList)

end RegisterMap.Yaml
