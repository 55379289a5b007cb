import RegisterMap.Text.Numeral
import RegisterMap.Toml.Value

/-!
# TOML Scalars

Strings in their four forms, and the values written without quotes: truth values, integers, real
numbers, dates and times.
-/

namespace RegisterMap.Toml

/-! ### Characters -/

/-- A character that text may contain on a line: a tab, or no control character. -/
def isTextChar (c : Char) : Bool := c = '\t' || (0x20 ≤ c.toNat && c.toNat ≠ 0x7F)

/-- A character of bare keys. -/
def isBareKeyChar (c : Char) : Bool := c.isAlphanum || c = '_' || c = '-'

/-! ### Strings -/

/-- The character that a backslash and `c` stand for. -/
def simpleEscape? (c : Char) : Option Char :=
  match c with
  | 'b' => some '\x08'
  | 't' => some '\t'
  | 'n' => some '\n'
  | 'f' => some '\x0c'
  | 'r' => some '\r'
  | '"' => some '"'
  | '\\' => some '\\'
  | _ => none

/-- The character with the number that `count` hexadecimal digits write. -/
def readCodePoint? (count : Nat) (cs : List Char) : Option (Char × List Char) := do
  let digits := cs.take count
  guard (digits.length == count)
  let n ← Text.ofDigits? 16 digits
  guard (n.isValidChar)
  return (.ofNat n, cs.drop count)

/-- The character of an escape, behind its backslash. -/
def readEscape? : List Char → Option (Char × List Char)
  | 'u' :: rest => readCodePoint? 4 rest
  | 'U' :: rest => readCodePoint? 8 rest
  | c :: rest => (simpleEscape? c).map (·, rest)
  | [] => none

/-- Read a **basic string** on one line, behind its opening quote. -/
def readBasic? : Nat → List Char → List Char → Option (String × List Char)
  | 0, _, _ => none
  | _ + 1, _, [] => none
  | fuel + 1, acc, c :: cs =>
    if c = '"' then some (String.ofList acc.reverse, cs)
    else if c = '\\' then do
      let (decoded, rest) ← readEscape? cs
      readBasic? fuel (decoded :: acc) rest
    else if isTextChar c then readBasic? fuel (c :: acc) cs
    else none

/-- Read a **literal string** on one line, behind its opening quote. -/
def readLiteral? (cs : List Char) : Option (String × List Char) :=
  let content := cs.takeWhile (· != '\'')
  match cs.drop content.length with
  | _ :: rest => if content.all isTextChar then some (String.ofList content, rest) else none
  | [] => none

/-- A line end right behind the opening quotes does not count. -/
def skipFirstNewline : List Char → List Char
  | '\n' :: rest => rest
  | '\r' :: '\n' :: rest => rest
  | cs => cs

/-- The end of a long string: three quotes, and before them at most two more, which belong to the
text. -/
def closeLong? (quote : Char) (acc cs : List Char) : Option (String × List Char) :=
  let quotes := (cs.takeWhile (· == quote)).take 5
  if quotes.length < 3 then none
  else some (String.ofList (acc.reverse ++ quotes.drop 3), cs.drop quotes.length)

/-- The text behind any number of blanks and line ends. A carriage return alone is no line end. -/
def skipBlankLines : List Char → List Char
  | ' ' :: rest => skipBlankLines rest
  | '\t' :: rest => skipBlankLines rest
  | '\n' :: rest => skipBlankLines rest
  | '\r' :: '\n' :: rest => skipBlankLines rest
  | cs => cs

/-- The text behind a backslash at the end of a line goes on behind the blanks and line ends that
follow. -/
def skipContinuation? (cs : List Char) : Option (List Char) :=
  match cs.dropWhile fun c => c = ' ' || c = '\t' with
  | '\n' :: rest => some (skipBlankLines rest)
  | '\r' :: '\n' :: rest => some (skipBlankLines rest)
  | _ => none

/-- Read a basic string **of several lines**, behind its opening quotes. -/
def readLongBasic? : Nat → List Char → List Char → Option (String × List Char)
  | 0, _, _ => none
  | _ + 1, _, [] => none
  | fuel + 1, acc, c :: cs =>
    if c = '"' then
      match closeLong? '"' acc (c :: cs) with
      | some result => some result
      | none => readLongBasic? fuel (c :: acc) cs
    else if c = '\\' then
      match skipContinuation? cs with
      | some rest => readLongBasic? fuel acc rest
      | none => do
        let (decoded, rest) ← readEscape? cs
        readLongBasic? fuel (decoded :: acc) rest
    else if c = '\r' then
      match cs with
      | '\n' :: rest => readLongBasic? fuel ('\n' :: acc) rest
      | _ => none
    else if c = '\n' || isTextChar c then readLongBasic? fuel (c :: acc) cs
    else none

/-- Read a literal string **of several lines**, behind its opening quotes. -/
def readLongLiteral? (acc : List Char) : List Char → Option (String × List Char)
  | [] => none
  | '\r' :: '\n' :: cs => readLongLiteral? ('\n' :: acc) cs
  | c :: cs =>
    if c = '\'' then
      match closeLong? '\'' acc (c :: cs) with
      | some result => some result
      | none => readLongLiteral? (c :: acc) cs
    else if c = '\n' || isTextChar c then readLongLiteral? (c :: acc) cs
    else none

/-! ### Numbers -/

/-- The digits of a numeral, which may be separated by single underscores. -/
def separatedDigits? (isDigit : Char → Bool) : List Char → Option (List Char)
  | [] => none
  | [c] => if isDigit c then some [c] else none
  | c :: '_' :: rest =>
    if isDigit c then (separatedDigits? isDigit rest).map (c :: ·) else none
  | c :: rest => if isDigit c then (separatedDigits? isDigit rest).map (c :: ·) else none

/-- The digits of a decimal integer: no zero in front of another digit. -/
def decimalDigits? (cs : List Char) : Option (List Char) := do
  let digits ← separatedDigits? Char.isDigit cs
  guard (digits.head? != some '0' || cs.length == 1)
  return digits

/-- An integer of 64 bits with a sign. -/
def int64? (n : Int) : Option Int :=
  if Int64.minValue.toInt ≤ n ∧ n ≤ Int64.maxValue.toInt then some n else none

/-- The value of digits in a radix. -/
def radixInt? (radix : Nat) (cs : List Char) : Option Int := do
  let digits ← separatedDigits? (fun c => (Text.digitValue? radix c).isSome) cs
  int64? (← Text.ofDigits? radix digits)

/-- The sign of a number: whether it is negative, and the rest. -/
def splitSign : List Char → Bool × List Char
  | '-' :: rest => (true, rest)
  | '+' :: rest => (false, rest)
  | cs => (false, cs)

/-- The **integer** that a text writes. -/
def intOf? (cs : List Char) : Option Int :=
  match cs with
  | '0' :: 'x' :: digits => radixInt? 16 digits
  | '0' :: 'o' :: digits => radixInt? 8 digits
  | '0' :: 'b' :: digits => radixInt? 2 digits
  | _ => do
    let (negative, digits) := splitSign cs
    let n ← Text.ofDigits? 10 (← decimalDigits? digits)
    int64? (if negative then -(n : Int) else n)

/-- The exponent of a real number, with its sign, if it has the form of one. -/
def exponentOf? (cs : List Char) : Option (List Char) := do
  let (negative, digits) := splitSign cs
  let digits ← separatedDigits? Char.isDigit digits
  return if negative then '-' :: digits else digits

/-- The characters of a real number without underscores, if it has the form of one. -/
def realDigits? (cs : List Char) : Option (List Char) := do
  let isExponentMark (c : Char) : Bool := c = 'e' || c = 'E'
  let mantissa := cs.takeWhile fun c => !isExponentMark c
  let exponent := cs.drop mantissa.length
  let whole := mantissa.takeWhile (· != '.')
  let fraction := mantissa.drop whole.length
  guard (!(fraction.isEmpty && exponent.isEmpty))
  let whole ← decimalDigits? whole
  let fraction ← match fraction with
    | _ :: digits => (separatedDigits? Char.isDigit digits).map ('.' :: ·)
    | [] => some []
  let exponent ← match exponent with
    | _ :: digits => (exponentOf? digits).map ('e' :: ·)
    | [] => some []
  return whole ++ fraction ++ exponent

/-- The **real number** that a text writes. A positive numeral past the range of doubles is none; a
negative one is infinite. -/
def realOf? (cs : List Char) : Option Float := do
  let (negative, digits) := splitSign cs
  let x ←
    if digits = ['i', 'n', 'f'] then some (1.0 / 0.0)
    else if digits = ['n', 'a', 'n'] then some (0.0 / 0.0)
    else do
      let x ← Decimal.readFloat? (← realDigits? digits)
      guard (negative || x.isFinite)
      some x
  return if negative then -x else x

/-! ### Dates and times -/

/-- The number that exactly `count` digits write. -/
def digitsOf? (count : Nat) (cs : List Char) : Option Nat :=
  if cs.length == count && cs.all Char.isDigit then Text.ofDigits? 10 cs else none

/-- The number of days of a month. -/
def daysOf (year month : Nat) : Nat :=
  if month = 2 then
    if year % 4 = 0 ∧ (year % 100 ≠ 0 ∨ year % 400 = 0) then 29 else 28
  else if month ∈ [4, 6, 9, 11] then 30
  else 31

/-- A **date**, such as `1979-05-27`. -/
def isDate (cs : List Char) : Bool :=
  match digitsOf? 4 (cs.take 4), digitsOf? 2 ((cs.drop 5).take 2),
      digitsOf? 2 ((cs.drop 8).take 2) with
  | some year, some month, some day =>
    cs.length == 10 && cs[4]? == some '-' && cs[7]? == some '-' &&
      1 ≤ month && month ≤ 12 && 1 ≤ day && day ≤ daysOf year month
  | _, _, _ => false

/-- Hours and minutes, such as `07:32`. -/
def isHourMinute (cs : List Char) : Bool :=
  match digitsOf? 2 (cs.take 2), digitsOf? 2 ((cs.drop 3).take 2) with
  | some hour, some minute =>
    cs.length == 5 && cs[2]? == some ':' && hour ≤ 23 && minute ≤ 59
  | _, _ => false

/-- A **time**, such as `07:32:00.5`. -/
def isTime (cs : List Char) : Bool :=
  let fraction := cs.drop 8
  let fractionFits := match fraction with
    | [] => true
    | '.' :: digits => !digits.isEmpty && digits.all Char.isDigit
    | _ => false
  isHourMinute (cs.take 5) && cs[5]? == some ':' &&
    (digitsOf? 2 ((cs.drop 6).take 2)).any (· ≤ 60) && fractionFits

/-- A time with an optional offset from universal time. -/
def isOffsetTime (cs : List Char) : Bool :=
  let time := cs.takeWhile fun c => c.isDigit || c = ':' || c = '.'
  let offset := cs.drop time.length
  let offsetFits := match offset with
    | [] => true
    | ['Z'] | ['z'] => true
    | '+' :: digits | '-' :: digits => isHourMinute digits
    | _ => false
  isTime time && offsetFits

/-- A date, a time, or a date and a time with a `T` between them. -/
def isDateOrTime (cs : List Char) : Bool :=
  isDate cs || isTime cs ||
    (isDate (cs.take 10) && (cs[10]? == some 'T' || cs[10]? == some 't') &&
      isOffsetTime (cs.drop 11))

/-! ### Values without quotes -/

/-- A character of a value without quotes. -/
def isBareValueChar (c : Char) : Bool := c.isAlphanum || ['_', '-', '+', '.', ':'].contains c

/-- Read a value **without quotes**. A date and a time may have one space between them. -/
def readBareValue? (cs : List Char) : Option (Value × List Char) :=
  let word := cs.takeWhile isBareValueChar
  let rest := cs.drop word.length
  let afterSpace := (rest.drop 1).takeWhile isBareValueChar
  if isDate word && rest.head? == some ' ' && isOffsetTime afterSpace then
    some (.date (String.ofList (word ++ ' ' :: afterSpace)), rest.drop (afterSpace.length + 1))
  else if isDateOrTime word then some (.date (String.ofList word), rest)
  else if word = "true".toList then some (.bool true, rest)
  else if word = "false".toList then some (.bool false, rest)
  else match intOf? word with
    | some n => some (.int n, rest)
    | none => (realOf? word).map fun x => (.real x, rest)

end RegisterMap.Toml
