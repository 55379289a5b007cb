/-!
# Shortest Decimals

A finite double is a number `m * 2 ^ q`, and the reals nearer to it than to any other double form an
interval around it. Its **shortest decimal** is the decimal of fewest digits inside that interval;
of two equally short ones the nearer, and on an exact tie the even one. All arithmetic is exact, on
natural numbers.

## Conventions

A decimal is a pair of digits `d` and an exponent `p` and stands for `d * 10 ^ p`. A ratio is a pair
of a numerator and a positive denominator.
-/

namespace RegisterMap.Decimal

/-- A nonnegative **binary** number `significand * 2 ^ exponent`. -/
structure Binary where
  significand : Nat
  exponent : Int
  /-- The gap to the next smaller double is half the gap to the next larger one. -/
  lowerGapHalved : Bool
deriving Repr

/-- The number that the magnitude bits of a finite double stand for. -/
def Binary.ofBits (bits : UInt64) : Binary :=
  let fraction := (bits &&& 0xfffffffffffff).toNat
  let biased := (bits >>> 52 &&& 0x7ff).toNat
  if biased = 0 then ⟨fraction, -1074, false⟩
  else ⟨0x10000000000000 + fraction, biased - 1075, fraction = 0 && biased > 1⟩

/-- `n * 2 ^ e` as a ratio. -/
def scaleBinary (n : Nat) (e : Int) : Nat × Nat :=
  if 0 ≤ e then (n <<< e.toNat, 1) else (n, 1 <<< (-e).toNat)

/-- The ratio `r / 10 ^ p`. -/
def unscaleDecimal (r : Nat × Nat) (p : Int) : Nat × Nat :=
  if 0 ≤ p then (r.1, r.2 * Nat.pow 10 p.toNat) else (r.1 * Nat.pow 10 (-p).toNat, r.2)

/-- The largest `e` with `10 ^ e ≤ r`, for a positive ratio `r`. -/
def magnitude (r : Nat × Nat) : Int :=
  if r.2 ≤ r.1 then ((Nat.toDigits 10 (r.1 / r.2)).length : Int) - 1
  else
    let k := (Nat.toDigits 10 (r.2 / r.1)).length
    if r.2 ≤ r.1 * Nat.pow 10 (k - 1) then 1 - (k : Int) else -(k : Int)

/-- The end points of the interval of reals that round to `b`. -/
def roundingInterval (b : Binary) : (Nat × Nat) × (Nat × Nat) :=
  let upper := scaleBinary (2 * b.significand + 1) (b.exponent - 1)
  let lower :=
    if b.lowerGapHalved then scaleBinary (4 * b.significand - 1) (b.exponent - 2)
    else scaleBinary (2 * b.significand - 1) (b.exponent - 1)
  (lower, upper)

/-- `d * 10 ^ p` rounds to `b`; the ends count when the significand is even. -/
def roundsTo (b : Binary) (d : Nat) (p : Int) : Bool :=
  let (lower, upper) := roundingInterval b
  let (ln, ld) := unscaleDecimal lower p
  let (un, ud) := unscaleDecimal upper p
  if b.significand % 2 = 0 then ln ≤ d * ld && d * ud ≤ un
  else ln < d * ld && d * ud < un

/-- The decimal with exponent `p` that stands for `b`, if there is one: one of the two neighbours of
`b` on the grid of multiples of `10 ^ p`. -/
def onGrid? (b : Binary) (p : Int) : Option Nat :=
  let (n, d) := unscaleDecimal (scaleBinary b.significand b.exponent) p
  let below := n / d
  let twice := 2 * (n % d)
  match roundsTo b below p, roundsTo b (below + 1) p with
  | true, true =>
    if twice < d || (twice = d && below % 2 = 0) then some below else some (below + 1)
  | true, false => some below
  | false, true => some (below + 1)
  | false, false => none

/-- Remove trailing zero digits. -/
def dropTrailingZeros : Nat → Nat → Int → Nat × Int
  | 0, d, p => (d, p)
  | fuel + 1, d, p =>
    if d % 10 = 0 ∧ d ≠ 0 then dropTrailingZeros fuel (d / 10) (p + 1) else (d, p)

/-- The **shortest decimal** of a positive finite double. -/
def shortest (b : Binary) : Nat × Int :=
  let top := magnitude (scaleBinary b.significand b.exponent)
  let found := (List.range 17).findSome? fun (k : Nat) =>
    (onGrid? b (top - k)).map fun d => (d, top - (k : Int))
  let (d, p) := found.getD (0, 0)
  dropTrailingZeros 20 d p

/-! ### Text -/

/-- What the formats decide about the text of a decimal. -/
structure Style where
  /-- What stands before an exponent that is not negative. -/
  plus : String := ""
deriving Repr, DecidableEq, Inhabited

/-- The text of an exponent. -/
def Style.exponentText (style : Style) (exponent : Int) : String :=
  "e" ++ (if 0 ≤ exponent then style.plus else "") ++ toString exponent

/-- A decimal in **text**: positional when the point falls within sixteen digits or at most four
zeros follow it, and with an exponent otherwise. -/
def render (style : Style) (digits : Nat) (exponent : Int) : String :=
  let ds := Nat.toDigits 10 digits
  let point : Int := ds.length + exponent
  if 0 ≤ exponent ∧ point ≤ 16 then
    String.ofList (ds ++ List.replicate exponent.toNat '0') ++ ".0"
  else if 0 < point ∧ point ≤ 16 then
    String.ofList (ds.take point.toNat) ++ "." ++ String.ofList (ds.drop point.toNat)
  else if -5 < point ∧ point ≤ 0 then
    "0." ++ String.ofList (List.replicate (-point).toNat '0' ++ ds)
  else
    let fraction := if ds.length ≤ 1 then "" else "." ++ String.ofList (ds.drop 1)
    String.ofList (ds.take 1) ++ fraction ++ style.exponentText (point - 1)

/-- The text of a finite double. -/
def renderFinite (style : Style) (x : Float) : String :=
  let bits := x.toBits
  let sign := if bits >>> 63 = 0 then "" else "-"
  let b := Binary.ofBits bits
  if b.significand = 0 then sign ++ "0.0"
  else
    let (d, p) := shortest b
    sign ++ render style d p

end RegisterMap.Decimal
