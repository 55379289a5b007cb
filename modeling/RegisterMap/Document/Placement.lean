import RegisterMap.Document.Problem
import RegisterMap.Word

/-!
# Placing Bit Fields

A field says where its bits are by a range, by an offset and a width, or not at all. The placer
takes the fields of a register in order; a field that leaves its place open starts at the
**cursor**, the furthest end of the fields placed before it. A field that cannot be placed does not
move the cursor.
-/

namespace RegisterMap

/-- How a field **says where its bits are**. -/
inductive Placement where
  /-- A bit range in text. -/
  | range (text : String)
  | explicit (offset width : UInt32)
  /-- So many bits, at the cursor. -/
  | auto (width : UInt32)
deriving Repr, DecidableEq, Inhabited

/-- The state of **placing** the fields of one register. -/
structure FieldPlacer where
  cursor : UInt32 := 0
deriving Repr, DecidableEq, Inhabited

namespace FieldPlacer

/-- The bits that a placement asks for. -/
def spanOf (p : FieldPlacer) : Placement → Except Problem BitSpan
  | .range text =>
    match BitRange.parse text with
    | .ok span => .ok span
    | .error e => .error (.badBitRange e)
  | .explicit offset width => .ok ⟨offset, width⟩
  | .auto width => .ok ⟨p.cursor, width⟩

/-- **Place** one field, and the placer for the next one. -/
def place (p : FieldPlacer) (placement : Placement) : Except Problem BitSpan × FieldPlacer :=
  match p.spanOf placement with
  | .error e => (.error e, p)
  | .ok span =>
    if span.width = 0 then (.error .emptyField, p)
    else (.ok span, ⟨max p.cursor (satAdd32 span.offset span.width)⟩)

end FieldPlacer

end RegisterMap
