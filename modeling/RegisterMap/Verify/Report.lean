import RegisterMap.Text.Format
import RegisterMap.Verify.Checks

/-!
# Validation Reports

A report counts what a model holds and lists what breaks its rules, for people and as JSON.
-/

namespace RegisterMap

/-- The **counts** of a report. -/
structure ReportSummary where
  memoryMaps : Nat
  blocks : Nat
  registers : Nat
  fields : Nat
  errors : Nat
  warnings : Nat
deriving Repr, DecidableEq, Inhabited

/-- The **report** on a model. -/
structure ValidationReport where
  valid : Bool
  summary : ReportSummary
  violations : List Violation
deriving Repr, DecidableEq, Inhabited

namespace ReportSummary

open Json in
/-- The counts as JSON. -/
def toJson (s : ReportSummary) : Json :=
  .obj (member "memory-maps" (.int s.memoryMaps) ++
    member "blocks" (.int s.blocks) ++
    member "registers" (.int s.registers) ++
    member "fields" (.int s.fields) ++
    member "errors" (.int s.errors) ++
    member "warnings" (.int s.warnings))

/-- The counts in one line. -/
def line (s : ReportSummary) : String :=
  s!"Maps: {s.memoryMaps} | Blocks: {s.blocks} | Registers: {s.registers} | " ++
    s!"Fields: {s.fields} | Errors: {s.errors} | Warnings: {s.warnings}"

end ReportSummary

namespace ValidationReport

/-- How many violations have this severity. -/
def countOf (violations : List Violation) (severity : Severity) : Nat :=
  violations.countP (·.severity == severity)

/-- The report on a model. -/
def ofModel (m : Model) : ValidationReport :=
  let violations := m.violations
  { valid := !violations.any (·.isError)
    summary :=
      { memoryMaps := m.memoryMaps.length
        blocks := m.blocks.length
        registers := m.registers.length
        fields := m.fields.length
        errors := countOf violations .error
        warnings := countOf violations .warning }
    violations }

/-- The report makes a run **fail**; warnings do so only when they are denied. -/
def fails (r : ValidationReport) (denyWarnings : Bool) : Bool :=
  !r.valid || (denyWarnings && r.summary.warnings > 0)

/-- The lines about one violation. -/
def violationText (v : Violation) : String :=
  s!"{v.line}\n" ++ String.join (v.related.map fun r => s!"  See: {r}\n")

/-- The report as **text**. -/
def text (r : ValidationReport) : String :=
  let body :=
    if r.violations.isEmpty then "No violations.\n"
    else "--- Violations ---\n" ++ String.join (r.violations.map violationText)
  s!"=== Validation Report ===\n{r.summary.line}\n" ++ body

open Json in
/-- The report as **JSON**. -/
def toJson (r : ValidationReport) : Json :=
  .obj (member "valid" (.bool r.valid) ++
    member "summary" r.summary.toJson ++
    member "violations" (.arr (r.violations.map (·.toJson))))

/-- The report in a **format**, which is text for people if none is given. -/
def render (r : ValidationReport) (format : Option String) : Except UnknownFormat String :=
  match format.getD "human" with
  | "human" => .ok r.text
  | "json" => .ok (r.toJson.indented ++ "\n")
  | name => .error { what := "report", name, choices := ["human", "json"] }

end ValidationReport

end RegisterMap
