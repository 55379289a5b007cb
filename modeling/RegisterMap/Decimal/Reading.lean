import RegisterMap.Text.Numeral

/-!
# Reading Decimals

A decimal number is digits with an optional point and an optional exponent; a digit has to stand on
at least one side of the point. It is read as the nearest double.
-/

namespace RegisterMap.Decimal

/-- A decimal numeral taken apart: `whole.fraction` times ten to the `exponent`. -/
structure Numeral where
  whole : List Char
  fraction : List Char
  exponent : Int
deriving Repr

/-- The exponent written by `cs`: an optional sign and digits. -/
def readExponent? : List Char → Option Int
  | '-' :: cs => (Text.ofDigits? 10 cs).map fun n => -(n : Int)
  | cs => (Text.ofPlusDigits? 10 cs).map fun n => (n : Int)

/-- Take an **unsigned decimal numeral** apart. -/
def readNumeral? (cs : List Char) : Option Numeral := do
  let whole := cs.takeWhile Char.isDigit
  let afterWhole := cs.dropWhile Char.isDigit
  let (fraction, rest) :=
    match afterWhole with
    | '.' :: tail => (tail.takeWhile Char.isDigit, tail.dropWhile Char.isDigit)
    | other => ([], other)
  guard (!(whole.isEmpty && fraction.isEmpty))
  match rest with
  | [] => pure ⟨whole, fraction, 0⟩
  | c :: tail => do
    guard (c = 'e' || c = 'E')
    let exponent ← readExponent? tail
    pure ⟨whole, fraction, exponent⟩

/-- The **nearest double** to a numeral. Beyond a few hundred digits on either side of the point the
result is infinite or zero whatever the digits are. -/
def Numeral.toFloat (n : Numeral) : Float :=
  let digits := (Text.ofDigits? 10 (n.whole ++ n.fraction)).getD 0
  let scale := n.exponent - n.fraction.length
  let width : Int := (Nat.toDigits 10 digits).length
  if digits = 0 then 0.0
  else if 400 < width + scale then 1.0 / 0.0
  else if width + scale < -400 then 0.0
  else Float.ofScientific digits (scale < 0) scale.natAbs

/-- A decimal number with an optional sign, as the nearest double. -/
def readFloat? (cs : List Char) : Option Float :=
  match cs with
  | '-' :: rest => (readNumeral? rest).map fun n => -n.toFloat
  | '+' :: rest => (readNumeral? rest).map (·.toFloat)
  | _ => (readNumeral? cs).map (·.toFloat)

end RegisterMap.Decimal
