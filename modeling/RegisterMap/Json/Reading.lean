import RegisterMap.Json.Number

/-!
# Reading JSON Text

`Json.parse` reads one JSON value with nothing but white space around it. Arrays and objects nest at
most 127 deep. A key that an object repeats keeps its last value.
-/

namespace RegisterMap.Json

/-- JSON white space. -/
def isSpace (c : Char) : Bool := c = ' ' || c = '\t' || c = '\n' || c = '\r'

/-- The input from the first character that is no white space. -/
def skipSpaces (cs : List Char) : List Char := cs.dropWhile isSpace

/-- The value of four hexadecimal digits, and the rest. -/
def readUnit? : List Char → Option (Nat × List Char)
  | a :: b :: c :: d :: rest => (Text.ofDigits? 16 [a, b, c, d]).map (·, rest)
  | _ => none

/-- The character of an escape after its `\u`: one unit, or a high and a low surrogate. -/
def readEscapedUnits? (cs : List Char) : Option (Char × List Char) := do
  let (unit, rest) ← readUnit? cs
  if 0xD800 ≤ unit ∧ unit < 0xDC00 then
    match rest with
    | '\\' :: 'u' :: more => do
      let (low, rest) ← readUnit? more
      guard (0xDC00 ≤ low && low < 0xE000)
      pure (.ofNat (0x10000 + (unit - 0xD800) * 0x400 + (low - 0xDC00)), rest)
    | _ => none
  else do
    guard (!(0xDC00 ≤ unit && unit < 0xE000))
    pure (.ofNat unit, rest)

/-- The character that a backslash and `c` stand for. -/
def simpleEscape? (c : Char) : Option Char :=
  match c with
  | '"' => some '"'
  | '\\' => some '\\'
  | '/' => some '/'
  | 'b' => some '\x08'
  | 'f' => some '\x0c'
  | 'n' => some '\n'
  | 'r' => some '\r'
  | 't' => some '\t'
  | _ => none

/-- Read a string after its opening quote. `acc` holds the characters so far, last one first. -/
def readString? : Nat → List Char → List Char → Option (String × List Char)
  | 0, _, _ => none
  | _ + 1, _, [] => none
  | fuel + 1, acc, c :: cs =>
    if c = '"' then some (String.ofList acc.reverse, cs)
    else if c = '\\' then
      match cs with
      | 'u' :: rest => do
        let (decoded, rest) ← readEscapedUnits? rest
        readString? fuel (decoded :: acc) rest
      | e :: rest => do
        let decoded ← simpleEscape? e
        readString? fuel (decoded :: acc) rest
      | [] => none
    else if c.toNat < 0x20 then none
    else readString? fuel (c :: acc) cs

/-- The members with one more in front. A key that is there already gets the new value. -/
def addMember (key : String) (value : Json) (members : List (String × Json)) :
    List (String × Json) :=
  (key, value) :: members.filter (·.1 != key)

/-- How deep arrays and objects may nest. -/
def maxDepth : Nat := 127

mutual

/-- Read one value that holds at most `depth` levels of arrays and objects. Each unit of `fuel`
allows for a step into a value or to its next part; two units for each character are enough for
those and for the characters of every string. -/
def readValue? : Nat → Nat → List Char → Option (Json × List Char)
  | 0, _, _ => none
  | fuel + 1, depth, cs =>
    match skipSpaces cs, depth with
    | 'n' :: 'u' :: 'l' :: 'l' :: rest, _ => some (.null, rest)
    | 't' :: 'r' :: 'u' :: 'e' :: rest, _ => some (.bool true, rest)
    | 'f' :: 'a' :: 'l' :: 's' :: 'e' :: rest, _ => some (.bool false, rest)
    | '"' :: rest, _ => (readString? fuel [] rest).map fun (s, rest) => (.str s, rest)
    | '[' :: _, 0 | '{' :: _, 0 => none
    | '[' :: rest, depth + 1 =>
      match skipSpaces rest with
      | ']' :: rest => some (.arr [], rest)
      | rest => readItems? fuel depth [] rest
    | '{' :: rest, depth + 1 =>
      match skipSpaces rest with
      | '}' :: rest => some (.obj [], rest)
      | rest => readMembers? fuel depth [] rest
    | rest, _ => (numberOf? (rest.takeWhile isNumberChar)).map (·, rest.dropWhile isNumberChar)

/-- Read the items of an array up to its closing bracket. -/
def readItems? : Nat → Nat → List Json → List Char → Option (Json × List Char)
  | 0, _, _, _ => none
  | fuel + 1, depth, acc, cs => do
    let (item, rest) ← readValue? fuel depth cs
    match skipSpaces rest with
    | ',' :: rest => readItems? fuel depth (item :: acc) rest
    | ']' :: rest => some (.arr (item :: acc).reverse, rest)
    | _ => none

/-- Read the members of an object up to its closing brace. -/
def readMembers? : Nat → Nat → List (String × Json) → List Char → Option (Json × List Char)
  | 0, _, _, _ => none
  | fuel + 1, depth, acc, cs =>
    match skipSpaces cs with
    | '"' :: rest => do
      let (key, rest) ← readString? fuel [] rest
      match skipSpaces rest with
      | ':' :: rest => do
        let (value, rest) ← readValue? fuel depth rest
        let acc := addMember key value acc
        match skipSpaces rest with
        | ',' :: rest => readMembers? fuel depth acc rest
        | '}' :: rest => some (.obj acc.reverse, rest)
        | _ => none
      | _ => none
    | _ => none

end

/-- Read a **JSON text**. -/
def parse (text : String) : Option Json := do
  let cs := text.toList
  let (value, rest) ← readValue? (2 * cs.length + 2) maxDepth cs
  guard (skipSpaces rest).isEmpty
  pure value

end RegisterMap.Json
