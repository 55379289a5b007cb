import RegisterMap.Decimal.Shortest
import RegisterMap.Text.Numeral

/-!
# JSON Values and Their Text

A JSON value keeps the order of its object members. It has two texts: a **compact** one without any
white space, which fingerprints are taken of, and an **indented** one for people. In both, a string
escapes the quote, the backslash and the control characters below the space, and nothing else.
-/

namespace RegisterMap

/-- A JSON value. -/
inductive Json where
  | null
  | bool (value : Bool)
  | int (value : Int)
  | real (value : Float)
  | str (value : String)
  | arr (items : List Json)
  | obj (members : List (String × Json))
deriving Repr, Inhabited

namespace Json

/-- A 64-bit number. -/
def nat64 (n : UInt64) : Json := .int n.toNat

/-- A 32-bit number. -/
def nat32 (n : UInt32) : Json := .int n.toNat

/-- An optional value, null when absent. -/
def ofOption (value : Option α) (encode : α → Json) : Json :=
  match value with
  | some a => encode a
  | none => .null

/-! ### Text -/

/-- The text of one character inside a string. -/
def escapeChar (c : Char) : List Char :=
  if c = '"' then ['\\', '"']
  else if c = '\\' then ['\\', '\\']
  else if c = '\x08' then ['\\', 'b']
  else if c = '\x0c' then ['\\', 'f']
  else if c = '\n' then ['\\', 'n']
  else if c = '\r' then ['\\', 'r']
  else if c = '\t' then ['\\', 't']
  else if c.toNat < 0x20 then
    '\\' :: 'u' :: (Text.padLeft '0' 4 (Text.hexDigits c.toNat)).toList
  else [c]

/-- A string in **quotes**. -/
def quote (s : String) : String := String.ofList ('"' :: s.toList.flatMap escapeChar ++ ['"'])

/-- Exponents that are not negative have a plus sign. -/
def realStyle : Decimal.Style := { plus := "+" }

/-- The text of a double. The numbers that have no digits are null. -/
def realText (x : Float) : String :=
  if x.isNaN || x.isInf then "null" else Decimal.renderFinite realStyle x

mutual

/-- `out` followed by the compact text of a value. -/
def writeCompact (out : String) : Json → String
  | .null => out ++ "null"
  | .bool true => out ++ "true"
  | .bool false => out ++ "false"
  | .int n => out ++ toString n
  | .real x => out ++ realText x
  | .str s => out ++ quote s
  | .arr [] => out ++ "[]"
  | .arr (x :: xs) => writeCompactItems (writeCompact (out ++ "[") x) xs
  | .obj [] => out ++ "\x7b\x7d"
  | .obj ((k, v) :: rest) =>
    writeCompactMembers (writeCompact (out ++ "\x7b" ++ quote k ++ ":") v) rest

/-- `out` followed by the rest of an array after its first item. -/
def writeCompactItems (out : String) : List Json → String
  | [] => out ++ "]"
  | x :: xs => writeCompactItems (writeCompact (out ++ ",") x) xs

/-- `out` followed by the rest of an object after its first member. -/
def writeCompactMembers (out : String) : List (String × Json) → String
  | [] => out ++ "\x7d"
  | (k, v) :: rest =>
    writeCompactMembers (writeCompact (out ++ "," ++ quote k ++ ":") v) rest

end

/-- The **compact text** of a value. -/
def compact (value : Json) : String := writeCompact "" value

/-- A line break and the indentation of `depth` levels. -/
def newline (depth : Nat) : String := "\n" ++ String.ofList (List.replicate (2 * depth) ' ')

mutual

/-- `out` followed by the indented text of a value that stands `depth` levels deep: two spaces a
level, one item or member a line, and empty arrays and objects closed at once. -/
def writeIndented (depth : Nat) (out : String) : Json → String
  | .null => out ++ "null"
  | .bool true => out ++ "true"
  | .bool false => out ++ "false"
  | .int n => out ++ toString n
  | .real x => out ++ realText x
  | .str s => out ++ quote s
  | .arr [] => out ++ "[]"
  | .arr (x :: xs) =>
    writeIndentedItems depth
      (writeIndented (depth + 1) (out ++ "[" ++ newline (depth + 1)) x) xs
  | .obj [] => out ++ "\x7b\x7d"
  | .obj ((k, v) :: rest) =>
    writeIndentedMembers depth
      (writeIndented (depth + 1) (out ++ "\x7b" ++ newline (depth + 1) ++ quote k ++ ": ") v) rest

/-- `out` followed by the rest of an indented array after its first item. -/
def writeIndentedItems (depth : Nat) (out : String) : List Json → String
  | [] => out ++ newline depth ++ "]"
  | x :: xs =>
    writeIndentedItems depth
      (writeIndented (depth + 1) (out ++ "," ++ newline (depth + 1)) x) xs

/-- `out` followed by the rest of an indented object after its first member. -/
def writeIndentedMembers (depth : Nat) (out : String) : List (String × Json) → String
  | [] => out ++ newline depth ++ "\x7d"
  | (k, v) :: rest =>
    writeIndentedMembers depth
      (writeIndented (depth + 1) (out ++ "," ++ newline (depth + 1) ++ quote k ++ ": ") v) rest

end

/-- The **indented text** of a value. -/
def indented (value : Json) : String := writeIndented 0 "" value

end Json

end RegisterMap
