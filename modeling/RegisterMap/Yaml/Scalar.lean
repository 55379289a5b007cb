import RegisterMap.Decimal.Reading
import RegisterMap.Yaml.Error
import RegisterMap.Yaml.Tag
import RegisterMap.Yaml.Value

/-!
# The Types of Scalars

A plain scalar without a tag is null, a truth value, an integer, a real number or a string,
whichever its text is first found to be. A tag of the YAML type repository asks for one of these
types.

## Conventions

Integers are decimal, or hexadecimal, octal or binary behind `0x`, `0o` or `0b`, with an optional
sign. Digits with a zero in front are a string, not a number.
-/

namespace RegisterMap.Yaml

/-- The texts of **null**. -/
def isNullText (s : String) : Bool := s ∈ ["null", "Null", "NULL", "~"]

/-- The texts of the **truth values**. -/
def boolOfText? (s : String) : Option Bool :=
  if s ∈ ["true", "True", "TRUE"] then some true
  else if s ∈ ["false", "False", "FALSE"] then some false
  else none

/-- More than one digit with a zero in front, after an optional sign. -/
def isZeroPadded (cs : List Char) : Bool :=
  let digits := match cs with
    | '-' :: rest | '+' :: rest => rest
    | _ => cs
  match digits with
  | '0' :: rest => !rest.isEmpty && rest.all Char.isDigit
  | _ => false

/-- The value of digits behind a radix mark. -/
def radixInt? : List Char → Option Nat
  | '0' :: 'x' :: digits => Text.ofDigits? 16 digits
  | '0' :: 'o' :: digits => Text.ofDigits? 8 digits
  | '0' :: 'b' :: digits => Text.ofDigits? 2 digits
  | _ => none

/-- The **integer** that a text writes, of any size. -/
def intOfText? (cs : List Char) : Option Int :=
  let decimal (digits : List Char) : Option Nat :=
    if isZeroPadded cs then none else Text.ofDigits? 10 digits
  match cs with
  | '-' :: rest => ((radixInt? rest).or (decimal rest)).map fun n => -(n : Int)
  | '+' :: rest => ((radixInt? rest).or (decimal rest)).map fun n => (n : Int)
  | _ => ((radixInt? cs).or (decimal cs)).map fun n => (n : Int)

/-- The integers of 128 bits, with or without a sign. -/
def isWideInt (n : Int) : Bool :=
  -0x80000000000000000000000000000000 ≤ n && n < 0x100000000000000000000000000000000

/-- The integer as a value, or why there is none. Between 64 and 128 bits it is an error; beyond,
the text is no integer at all. -/
def intValue? (cs : List Char) : Option (Except Error Value) :=
  match intOfText? cs with
  | none => none
  | some n =>
    if Int64.minValue.toInt ≤ n ∧ n < UInt64.size then some (.ok (.int n))
    else if isWideInt n then some (.error .integerTooLarge)
    else none

/-- The **real number** that a text writes. A numeral past the range of doubles is none. -/
def realOfText? (cs : List Char) : Option Float :=
  let s := String.ofList cs
  if s ∈ [".inf", ".Inf", ".INF", "+.inf", "+.Inf", "+.INF"] then some (1.0 / 0.0)
  else if s ∈ ["-.inf", "-.Inf", "-.INF"] then some (-1.0 / 0.0)
  else if s ∈ [".nan", ".NaN", ".NAN"] then some (0.0 / 0.0)
  else (Decimal.readFloat? cs).filter (·.isFinite)

/-- The value of a **plain** scalar. -/
def plainValue (s : String) : Except Error Value :=
  if s.isEmpty || isNullText s then .ok .null
  else match boolOfText? s with
    | some b => .ok (.bool b)
    | none =>
      let cs := s.toList
      match intValue? cs with
      | some result => result
      | none =>
        if isZeroPadded cs then .ok (.str s)
        else match realOfText? cs with
          | some x => .ok (.real x)
          | none => .ok (.str s)

/-- The value of a scalar with a tag that is not local: the type that the tag names, and a string
for any other tag. -/
def repositoryValue (tag : TagBytes) (s : String) : Except Error Value :=
  if tag = repositoryTag "bool" then
    match boolOfText? s with
    | some b => .ok (.bool b)
    | none => .error .typeMismatch
  else if tag = repositoryTag "int" then (intValue? s.toList).getD (.error .typeMismatch)
  else if tag = repositoryTag "float" then
    match realOfText? s.toList with
    | some x => .ok (.real x)
    | none => .error .typeMismatch
  else if tag = repositoryTag "null" then
    if isNullText s then .ok .null else .error .typeMismatch
  else .ok (.str s)

end RegisterMap.Yaml
