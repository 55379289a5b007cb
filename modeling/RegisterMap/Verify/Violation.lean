import RegisterMap.Json.Decoding

/-!
# Violations

A violation says which rule a model breaks and where. Most are errors; a register that is not
aligned to its own width is only a warning.
-/

namespace RegisterMap

/-- How serious a violation is. -/
inductive Severity where
  | error
  | warning
deriving Repr, DecidableEq, Inhabited

namespace Severity

/-- The severity as a reader is told about it. -/
def label : Severity → String
  | error => "ERROR"
  | warning => "WARN"

/-- The canonical spelling. -/
def name : Severity → String
  | error => "error"
  | warning => "warning"

end Severity

/-- The **rules** that a model may break. -/
inductive ViolationKind where
  /-- Two fields of a register share bits. -/
  | fieldOverlap
  /-- A field reaches past its register. -/
  | fieldBounds
  /-- Two registers of a block share bytes. -/
  | registerOverlap
  /-- Two blocks of a map share addresses. -/
  | blockOverlap
  /-- A reset value needs more bits than there are. -/
  | resetRange
  /-- A reference names nothing that is declared. -/
  | danglingReference
  /-- A reference names an entity of another kind. -/
  | referenceKindMismatch
  /-- A register is not aligned to its own width. -/
  | alignment
  /-- Two siblings have the same name. -/
  | duplicateName
  /-- The stride of an array is smaller than one instance. -/
  | arrayStride
deriving Repr, DecidableEq, Inhabited

namespace ViolationKind

/-- The canonical spelling. -/
def name : ViolationKind → String
  | fieldOverlap => "field-overlap"
  | fieldBounds => "field-bounds"
  | registerOverlap => "register-overlap"
  | blockOverlap => "block-overlap"
  | resetRange => "reset-range"
  | danglingReference => "dangling-reference"
  | referenceKindMismatch => "reference-kind-mismatch"
  | alignment => "alignment"
  | duplicateName => "duplicate-name"
  | arrayStride => "array-stride"

/-- The rule is about references. -/
def isReference : ViolationKind → Bool
  | danglingReference | referenceKindMismatch => true
  | _ => false

/-- How serious it is to break the rule. -/
def severity : ViolationKind → Severity
  | alignment => .warning
  | _ => .error

end ViolationKind

/-- A **broken rule**, at the path of what breaks it. -/
structure Violation where
  kind : ViolationKind
  path : String
  text : String
  /-- The paths or names of what else is involved. -/
  related : List String := []
deriving Repr, DecidableEq, Inhabited

namespace Violation

/-- How serious the violation is. -/
def severity (v : Violation) : Severity := v.kind.severity

/-- The violation is an error. -/
def isError (v : Violation) : Bool := v.severity == .error

/-- The violation in one line. -/
def line (v : Violation) : String :=
  s!"[{v.severity.label}] {v.kind.name} at {v.path}: {v.text}"

open Json in
/-- The violation as JSON. -/
def toJson (v : Violation) : Json :=
  .obj (member "kind" (.str v.kind.name) ++
    member "severity" (.str v.severity.name) ++
    member "message" (.str v.text) ++
    member "path" (.str v.path) ++
    memberIfAny "related" v.related .str)

end Violation

end RegisterMap
