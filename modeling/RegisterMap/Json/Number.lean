import RegisterMap.Decimal.Reading
import RegisterMap.Json.Basic

/-!
# Reading JSON Numbers

An integer that fits 64 bits, with or without a sign, keeps its exact value. Any other number
becomes a double in two steps: its leading digits make an integer of 64 bits, and that is multiplied
with a power of ten or divided by one. Both steps round, so the result may lie a little off the
nearest double.
-/

namespace RegisterMap.Json

/-! ### Leading digits -/

/-- The **leading digits** of a number: it is about `significand * 10 ^ exponent`. -/
structure Leading where
  significand : Nat
  exponent : Int
deriving Repr, DecidableEq

namespace Leading

/-- The number with one more digit, as long as that fits 64 bits. -/
def appendDigit? (n : Nat) (digit : Char) : Option Nat :=
  let m := 10 * n + (digit.toNat - '0'.toNat)
  if m < UInt64.size then some m else none

/-- The leading digits of a whole number whose first digits make `n`. The digits from the first one
that does not fit count as zeros. -/
def ofWhole (n : Nat) : List Char → Leading
  | [] => ⟨n, 0⟩
  | digit :: rest =>
    match appendDigit? n digit with
    | some m => ofWhole m rest
    | none => ⟨n, rest.length + 1⟩

/-- The leading digits with those of a fraction behind them. The digits from the first one that does
not fit do not count. -/
def withFraction (l : Leading) : List Char → Leading
  | [] => l
  | digit :: rest =>
    match appendDigit? l.significand digit with
    | some m => withFraction ⟨m, l.exponent - 1⟩ rest
    | none => l

/-- The leading digits of a numeral. -/
def ofNumeral (n : Decimal.Numeral) : Leading :=
  let l := (ofWhole 0 n.whole).withFraction n.fraction
  { l with exponent := l.exponent + n.exponent }

end Leading

/-! ### Scaling -/

/-- The largest power of ten that a double can hold. -/
def largestPower : Nat := 308

/-- Ten to the `e`, as the nearest double. -/
def powerOfTen (e : Nat) : Float := Float.ofScientific 1 false e

/-- A double divided by ten to the `e`; by the largest power as often as it takes. -/
def divideByPower (x : Float) (e : Nat) : Float :=
  if e ≤ largestPower then x / powerOfTen e
  else if x == 0 then x
  else divideByPower (x / powerOfTen largestPower) (e - largestPower)
termination_by e
decreasing_by simp only [largestPower] at *; omega

/-- The double that leading digits stand for. A number past the range of doubles has none. -/
def Leading.toFloat? (l : Leading) : Option Float :=
  let x := Float.ofNat l.significand
  if l.exponent < 0 then some (divideByPower x l.exponent.natAbs)
  else if l.exponent ≤ largestPower then
    some (x * powerOfTen l.exponent.natAbs) |>.filter (·.isFinite)
  else if l.significand = 0 then some x
  else none

/-! ### Numbers -/

/-- The characters that a number may consist of. -/
def isNumberChar (c : Char) : Bool :=
  c.isDigit || c = '-' || c = '+' || c = '.' || c = 'e' || c = 'E'

/-- A whole number without a fraction or an exponent, if it fits 64 bits. Zero with a minus sign is
no integer. -/
def intOf? (negative : Bool) (digits : List Char) : Option Int :=
  (Text.ofDigits? 10 digits).bind fun n =>
    if negative then
      if n = 0 || n > Int64.minValue.toInt.natAbs then none else some (-(n : Int))
    else if n < UInt64.size then some n
    else none

/-- The double that a numeral without a sign stands for. Digits follow its point if it has one. -/
def realOf? (digits : List Char) : Option Float := do
  let numeral ← Decimal.readNumeral? digits
  guard (!(digits.contains '.' && numeral.fraction.isEmpty))
  (Leading.ofNumeral numeral).toFloat?

/-- A numeral starts with a digit, and with a zero only if no other digit follows. -/
def startsWell : List Char → Bool
  | '0' :: c :: _ => !c.isDigit
  | c :: _ => c.isDigit
  | [] => false

/-- The **number** written by exactly these characters, with or without a minus sign in front. -/
def numberOf? (cs : List Char) : Option Json := do
  let (negative, digits) := match cs with
    | '-' :: rest => (true, rest)
    | _ => (false, cs)
  guard (startsWell digits)
  match intOf? negative digits with
  | some n => return .int n
  | none => do
    let x ← realOf? digits
    return .real (if negative then -x else x)

end RegisterMap.Json
