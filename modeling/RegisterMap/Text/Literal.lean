import RegisterMap.Text.Blank
import RegisterMap.Text.Numeral

/-!
# Numeric Literals

A document may write any number as text: decimal, or hexadecimal, binary or octal behind `0x`, `0b`
or `0o`, in either letter case and with `_` between any two characters. Values are 64-bit and never
negative.
-/

namespace RegisterMap

/-- Why a text is no **numeric literal**. -/
inductive LiteralError where
  /-- Nothing but blanks and separators. -/
  | empty
  /-- A minus sign in front. -/
  | negative (text : String)
  /-- A character that is no digit, no digit at all, or a value past 64 bits. -/
  | malformed (text : String)
deriving Repr, DecidableEq, Inhabited

namespace LiteralError

/-- The wording of a rejected literal. -/
def message : LiteralError → String
  | empty => "empty numeric literal"
  | negative text => s!"negative value '{text}' is not allowed"
  | malformed text => s!"malformed numeric literal '{text}'"

end LiteralError

namespace Literal

/-- The radix that a literal's first two characters choose, and the rest. -/
def radixOf : List Char → Nat × List Char
  | '0' :: 'x' :: digits => (16, digits)
  | '0' :: 'b' :: digits => (2, digits)
  | '0' :: 'o' :: digits => (8, digits)
  | digits => (10, digits)

/-- The characters that count: no surrounding blanks and no separators. -/
def significant (text : String) : List Char :=
  (Text.trimChars text.toList).filter (· ≠ '_')

/-- The value of the **literal** `text`. -/
def parse (text : String) : Except LiteralError UInt64 :=
  match significant text with
  | [] => .error .empty
  | '-' :: _ => .error (.negative text)
  | cs =>
    let (radix, digits) := radixOf (cs.map Char.toLower)
    match Text.ofPlusDigits? radix digits with
    | some n => if n < UInt64.size then .ok (.ofNat n) else .error (.malformed text)
    | none => .error (.malformed text)

end Literal

end RegisterMap
