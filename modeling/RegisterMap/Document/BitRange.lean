import RegisterMap.Text.Blank
import RegisterMap.Text.Numeral
import RegisterMap.Text.Split

/-!
# Bit Ranges

A field may give its bits as `[msb:lsb]` or `[n]`. Blanks around the range and around each bound do
not count; bounds are plain decimal digits, and no bound lies past bit 63.
-/

namespace RegisterMap

/-- A **range of bits**: the least significant bit and the number of bits. -/
structure BitSpan where
  offset : UInt32
  width : UInt32
deriving Repr, DecidableEq, Inhabited

/-- Why a text is no **bit range**. -/
inductive BitRangeError where
  /-- The brackets are missing. -/
  | malformed (text : String)
  /-- A bound is no decimal number of 32 bits. -/
  | badBound (bound : String)
  /-- The most significant bit is below the least significant one. -/
  | reversed (msb lsb : Nat)
  /-- A bound lies past the last bit of the widest register. -/
  | beyondWidest (bit : Nat)
deriving Repr, DecidableEq, Inhabited

namespace BitRangeError

/-- The wording of a rejected range. -/
def message : BitRangeError → String
  | malformed text => s!"malformed bit range '{text}', expected \"[msb:lsb]\" or \"[n]\""
  | badBound bound => s!"invalid bit bound '{bound}'"
  | reversed msb lsb => s!"bit range [{msb}:{lsb}] has msb below lsb"
  | beyondWidest bit => s!"bit {bit} is past bit 63 of the widest register"

end BitRangeError

namespace BitRange

/-- The highest bit that a register can have. -/
def maxBit : Nat := 63

/-- The characters between the brackets of a range. -/
def insideBrackets? (cs : List Char) : Option (List Char) :=
  match Text.trimChars cs with
  | '[' :: rest => if rest.getLast? = some ']' then some rest.dropLast else none
  | _ => none

/-- The value of a **bound**. -/
def parseBound (cs : List Char) : Except BitRangeError Nat :=
  let digits := Text.trimChars cs
  match Text.ofDigits? 10 digits with
  | some n => if n < UInt32.size then .ok n else .error (.badBound (String.ofList digits))
  | none => .error (.badBound (String.ofList digits))

/-- The bits between two bounds. -/
def between (msb lsb : Nat) : Except BitRangeError BitSpan :=
  if maxBit < msb then .error (.beyondWidest msb)
  else if msb < lsb then .error (.reversed msb lsb)
  else .ok ⟨.ofNat lsb, .ofNat (msb - lsb + 1)⟩

/-- The bits that the **range** `text` names. -/
def parse (text : String) : Except BitRangeError BitSpan :=
  match insideBrackets? text.toList with
  | none => .error (.malformed text)
  | some inner =>
    match Text.splitFirstChars ':' inner with
    | some (msb, lsb) => do
      let msb ← parseBound msb
      let lsb ← parseBound lsb
      between msb lsb
    | none => do
      let bit ← parseBound inner
      between bit bit

end BitRange

end RegisterMap
