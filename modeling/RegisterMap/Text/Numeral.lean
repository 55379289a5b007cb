/-!
# Numerals

Digits in a radix of at most 36, read and written. Reading is exact: no sign, no separator, at least
one digit, and every character a digit of the radix in either letter case.
-/

namespace RegisterMap.Text

/-- The value of a **digit** in `radix`, with letters of either case for the values from ten on. -/
def digitValue? (radix : Nat) (c : Char) : Option Nat :=
  let value :=
    if '0' ≤ c ∧ c ≤ '9' then some (c.toNat - '0'.toNat)
    else if 'a' ≤ c ∧ c ≤ 'z' then some (c.toNat - 'a'.toNat + 10)
    else if 'A' ≤ c ∧ c ≤ 'Z' then some (c.toNat - 'A'.toNat + 10)
    else none
  value.filter (· < radix)

/-- The value of `digits` appended to a numeral that already has the value `acc`. -/
def appendDigits? (radix : Nat) : Nat → List Char → Option Nat
  | acc, [] => some acc
  | acc, c :: cs => do
    let d ← digitValue? radix c
    appendDigits? radix (acc * radix + d) cs

/-- The value of a **nonempty** digit string. -/
def ofDigits? (radix : Nat) : List Char → Option Nat
  | [] => none
  | c :: cs => appendDigits? radix 0 (c :: cs)

/-- The value of a digit string with at most one leading plus sign. -/
def ofPlusDigits? (radix : Nat) : List Char → Option Nat
  | '+' :: cs => ofDigits? radix cs
  | cs => ofDigits? radix cs

/-! ### Writing -/

/-- Fill `s` with `fill` on the left up to `width` characters. -/
def padLeft (fill : Char) (width : Nat) (s : String) : String :=
  String.ofList (List.replicate (width - s.length) fill) ++ s

/-- Fill `s` with spaces on the right up to `width` characters. -/
def padRight (width : Nat) (s : String) : String :=
  s ++ String.ofList (List.replicate (width - s.length) ' ')

/-- Small hexadecimal digits without a prefix sign. -/
def hexDigits (n : Nat) : String := String.ofList (Nat.toDigits 16 n)

/-- A word in **hexadecimal**, such as `0x1f`. -/
def hex (word : UInt64) : String := "0x" ++ hexDigits word.toNat

/-- A word in hexadecimal with at least eight digits, such as `0x0000001f`. -/
def hexAddress (word : UInt64) : String := "0x" ++ padLeft '0' 8 (hexDigits word.toNat)

end RegisterMap.Text
