/-!
# Overlapping Intervals

Half-open intervals of 64-bit numbers are swept in the order of their starts. The sweep keeps the
earlier intervals that are still open; each of them overlaps the interval that starts now.
-/

namespace RegisterMap

/-- A **half-open interval** with a label. -/
structure Interval (α : Type) where
  start : UInt64
  stop : UInt64
  label : α
deriving Repr, DecidableEq

namespace Interval

variable {α : Type}

/-- The interval has a point. -/
def nonempty (i : Interval α) : Bool := i.start < i.stop

/-- Intervals in the order of their starts, and of their ends where these agree. -/
def before (a b : Interval α) : Bool := a.start < b.start || (a.start == b.start && a.stop ≤ b.stop)

/-- Sweep over intervals in the order of their starts; `active` holds the earlier ones that may
still be open. -/
def sweep : List (Interval α) → List (Interval α) → List (α × α)
  | _, [] => []
  | active, i :: rest =>
    let active := active.filter (i.start < ·.stop)
    active.map (fun a => (a.label, i.label)) ++ sweep (active ++ [i]) rest

/-- Every pair of intervals with a **point in common**, the earlier one first. Pairs come in the
order of their later interval, and for one later interval in the order of the earlier one. -/
def overlappingPairs (intervals : List (Interval α)) : List (α × α) :=
  sweep [] ((intervals.filter (·.nonempty)).mergeSort before)

end Interval

end RegisterMap
