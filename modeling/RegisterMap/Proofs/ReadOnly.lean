import RegisterMap.Document.Resolving
import RegisterMap.Proofs.Ensures
import RegisterMap.Proofs.Guarantees

/-!
# Read-Only Registers

A register and its fields have a policy each. The write of a whole register looks at the policy of
the register, and the write of a field looks at the policy of the field alone. So a read-only
register is left alone exactly if none of the fields that are found in it may be written; nothing
but the write of such a field ever changes it.

## Main results

* `RegisterHandle.Follows.issued_prefix` — which requests a script makes that follows its accesses.
* `RegisterHandle.exists_field_of_write` — what an operation writes a read-only register by.
* `readOnly_kept_iff` — for which models no run writes a read-only register.
-/

namespace RegisterMap

namespace RegisterHandle

variable {h : RegisterHandle} {operation : Operation}

/-! ### Attempts -/

/-- An **attempt** to write a register, or a field that is found in it. -/
inductive Attempts (h : RegisterHandle) : Operation → Option BitField → Prop where
  | register (word : Word) : Attempts h (.write word) none
  | field {name : String} {f : BitField} (value : Word)
    (found : h.register.field? name = some f) : Attempts h (.writeField name value) (some f)

/-- The error of an attempt that the policy of the register denies. -/
def denial (h : RegisterHandle) (field : Option BitField) : EngineError :=
  .accessViolation h.path (field.map (·.name)) h.register.access .write

/-- No field that is found in the register may be written. -/
def FieldsReadOnly (h : RegisterHandle) : Prop :=
  ∀ name f, h.register.field? name = some f → f.access = .readOnly

/-- The one policy that forbids writes. -/
theorem eq_readOnly_of_not_isWritable {policy : AccessPolicy} (hp : policy.isWritable = false) :
    policy = .readOnly := by
  cases policy with
  | readOnly => rfl
  | _ => nomatch hp

/-- Attempts at a read-only register are **denied**, if its fields are read-only. -/
theorem Attempts.refuses {field : Option BitField} (ha : h.Attempts operation field)
    (hregister : h.register.access = .readOnly) (hfields : h.FieldsReadOnly) :
    h.Refuses operation (h.denial field) := by
  cases ha with
  | register word => exact .write word (by rw [hregister]; rfl)
  | @field name f value found =>
      have hpolicy : f.access = h.register.access := (hfields name f found).trans hregister.symm
      rw [denial, ← hpolicy]
      exact .writeField value found (by rw [hfields name f found]; rfl)

/-- A field whose write is denied is **read-only** itself. -/
theorem access_of_refuses {name : String} {f : BitField} {value : Word}
    (hr : h.Refuses (.writeField name value) (h.denial (some f)))
    (hfound : h.register.field? name = some f) : f.access = .readOnly := by
  generalize he : h.denial (some f) = e at hr
  cases hr with
  | unknownWrite value missing => nomatch he
  | writeField value found denied =>
      obtain rfl := Option.some.inj (found.symm.trans hfound)
      exact eq_readOnly_of_not_isWritable denied
  | wideValue found writable wide => nomatch he

/-! ### Requests -/

/-- A script that follows its accesses makes no **other requests**. -/
theorem Follows.issued_prefix {accesses : List Direction} {s rest : Script Outcome}
    {calls : List Call} (hf : h.Follows accesses s) (hafter : s.After calls rest) :
    (Script.issued calls rest).map (·.direction) <+: accesses := by
  induction hafter generalizing accesses with
  | start s =>
      cases hf with
      | done result => exact List.nil_prefix
      | call admitted ends goes_on => simp [Script.issued]
  | @call request next answer calls rest hafter ih =>
      cases hf with
      | @call _ _ later admitted ends goes_on =>
        cases answer with
        | ok word => exact List.cons_prefix_cons.mpr ⟨rfl, ih (goes_on word)⟩
        | error cause =>
            rw [ends] at hafter
            obtain ⟨rfl, rfl⟩ := hafter.of_done
            simp [Script.issued]

/-- A read-only register is written by nothing but the write of **a field that may be written**. -/
theorem exists_field_of_write {calls : List Call} {rest : Script Outcome}
    (hafter : (h.perform operation).After calls rest) (hregister : h.register.access = .readOnly)
    {r : Request} (hr : r ∈ Script.issued calls rest) (hwrite : r.isRead = false) :
    ∃ name value f, operation = .writeField name value ∧ h.register.field? name = some f ∧
      f.access ≠ .readOnly := by
  have hnot {e : EngineError} : ¬ h.Refuses operation e := by
    intro hrefuses
    rw [hrefuses.perform_eq] at hafter
    obtain ⟨rfl, rfl⟩ := hafter.of_done
    nomatch hr
  obtain ⟨e, hrefuses⟩ | hfollows := h.perform_follows operation
  · exact absurd hrefuses hnot
  · have hdirection : r.direction = .write := by
      cases r with
      | read address => nomatch hwrite
      | write address word => rfl
    have haccess : .write ∈ h.accesses operation :=
      (hfollows.issued_prefix hafter).subset (List.mem_map.mpr ⟨r, hr, hdirection⟩)
    cases operation with
    | read | readField | resetValue => simp [accesses] at haccess
    | write word => exact absurd (.write word (by rw [hregister]; rfl)) hnot
    | writeField name value =>
        cases hfound : h.register.field? name with
        | none => exact absurd (.unknownWrite value hfound) hnot
        | some f =>
            refine ⟨name, value, f, rfl, hfound, fun hpolicy => ?_⟩
            exact absurd (.writeField value hfound (by rw [hpolicy]; rfl)) hnot

end RegisterHandle

/-! ### Runs -/

namespace Model

/-- **Read-only registers are kept.** Whatever the acts of a run and the answers of its bus, an act
on a read-only register requests no write, and is denied if it is an attempt to write the register
or a field of it. -/
def KeepsReadOnly (m : Model) : Prop :=
  ∀ (Bus : Type) (answer : Bus → Request → Answer × Bus) (acts : List Act) (bus : Bus)
    (episodes : List Episode),
    m.Episodes acts ((m.performAll acts).calls answer bus)
        (.done ((m.performAll acts).run answer bus).1) episodes →
      ∀ e ∈ episodes, ∀ h, m.handle e.act.target = .ok h → h.register.access = .readOnly →
        (∀ r ∈ e.issued, r.isRead = true) ∧
          ∀ field, h.Attempts e.act.operation field →
            e.calls = [] ∧ e.rest = .done (.error (h.denial field))

variable {m : Model}

/-- An act on a register that is found is **an operation on its handle**. -/
theorem perform_of_handle {act : Act} {h : RegisterHandle} (hh : m.handle act.target = .ok h) :
    m.perform act = h.perform act.operation := by
  rw [perform, hh]

/-- With read-only fields, read-only registers are kept. -/
theorem keepsReadOnly_of_fieldsReadOnly
    (hfields : ∀ target h, m.handle target = .ok h → h.register.access = .readOnly →
      h.FieldsReadOnly) : m.KeepsReadOnly := by
  intro Bus answer acts bus episodes he e hmem h hh hregister
  have hafter := he.after e hmem
  rw [perform_of_handle hh] at hafter
  refine ⟨fun r hr => ?_, fun field hattempt => ?_⟩
  · by_contra hwrite
    obtain ⟨name, value, f, -, hfound, hpolicy⟩ :=
      RegisterHandle.exists_field_of_write hafter hregister hr (Bool.eq_false_of_not_eq_true hwrite)
    exact hpolicy (hfields _ h hh hregister name f hfound)
  · have hrefuses := hattempt.refuses hregister (hfields _ h hh hregister)
    rw [hrefuses.perform_eq] at hafter
    exact hafter.of_done

/-- Where read-only registers are kept, their fields are read-only: the run is the one **attempt to
write the field**. -/
theorem KeepsReadOnly.fieldsReadOnly (hkept : m.KeepsReadOnly) {target : Target}
    {h : RegisterHandle} (hh : m.handle target = .ok h)
    (hregister : h.register.access = .readOnly) : h.FieldsReadOnly := by
  intro name f hfound
  let act : Act := ⟨target, .writeField name 0⟩
  let answer : Unit → Request → Answer × Unit := fun bus _ => (.ok 0, bus)
  obtain ⟨episodes, he⟩ := m.exists_episodes ((m.performAll [act]).after_calls answer ())
  obtain ⟨hacts, -⟩ := he.done _ rfl
  obtain ⟨e, rfl, heact⟩ := List.map_eq_singleton_iff.mp hacts
  have hmem : e ∈ [e] := List.mem_singleton_self e
  have htarget : m.handle e.act.target = .ok h := heact ▸ hh
  have hattempt : h.Attempts e.act.operation (some f) := heact ▸ .field 0 hfound
  obtain ⟨hcalls, hrest⟩ :=
    (hkept Unit answer [act] () [e] he e hmem h htarget hregister).2 _ hattempt
  have hafter := he.after e hmem
  rw [hcalls, hrest, perform_of_handle htarget, heact] at hafter
  have hperform : h.perform (.writeField name 0) = .done (.error (h.denial (some f))) := by
    generalize h.perform (.writeField name 0) = s at hafter
    cases hafter with
    | start => rfl
  exact RegisterHandle.access_of_refuses (RegisterHandle.perform_eq_error_iff.mp hperform) hfound

end Model

/-- **Read-only registers.** The runs of a model keep its read-only registers if and only if the
fields that are found in these registers are read-only. In any case, an act that requests a write of
a read-only register is the write of a field that may be written. -/
theorem readOnly_kept_iff (m : Model) :
    (m.KeepsReadOnly ↔ ∀ target h, m.handle target = .ok h → h.register.access = .readOnly →
      ∀ name f, h.register.field? name = some f → f.access = .readOnly) ∧
    ∀ acts calls rest episodes, m.Episodes acts calls rest episodes →
      ∀ e ∈ episodes, ∀ h, m.handle e.act.target = .ok h → h.register.access = .readOnly →
        ∀ r ∈ e.issued, r.isRead = false → ∃ name value f,
          e.act.operation = .writeField name value ∧ h.register.field? name = some f ∧
            f.access ≠ .readOnly := by
  refine ⟨⟨fun hkept target h => hkept.fieldsReadOnly, Model.keepsReadOnly_of_fieldsReadOnly⟩, ?_⟩
  intro acts calls rest episodes he e hmem h hh hregister r hr hwrite
  have hafter := he.after e hmem
  rw [Model.perform_of_handle hh] at hafter
  exact RegisterHandle.exists_field_of_write hafter hregister hr hwrite

/-! ### A status register -/

namespace StatusRegister

/-- A document with a read-only register, one field of which may be written. -/
def document : List Yaml.Value :=
  [.map [(.str "memoryMaps", .seq [.map
    [(.str "name", .str "soc"), (.str "addressBlocks", .seq [.map
      [(.str "name", .str "unit"), (.str "offset", .int 0), (.str "registers", .seq [.map
        [(.str "name", .str "status"), (.str "access", .str "read-only"), (.str "fields", .seq
          [.map [(.str "name", .str "mode"), (.str "bitOffset", .int 4), (.str "bitWidth", .int 4),
            (.str "access", .str "read-write")]])]])]])]])]]

/-- The field that may be written. -/
def mode : BitField := { name := "mode", bitOffset := 4, bitWidth := 4, access := .readWrite }

/-- The register of the document. -/
def status : Register :=
  { name := "status", offset := 0, width := 32, access := .readOnly, fields := [mode] }

/-- The model of the document. -/
def model : Model :=
  { memoryMaps := [{ name := "soc", blocks := [
      { name := "unit", baseOffset := 0, size := 64, registers := [status] }] }] }

/-- The handle of the register. -/
def handle : RegisterHandle := { path := "soc.unit.status", address := 0, register := status }

/-- The document resolves to the register. -/
theorem resolved : Model.ofSections {} document = .ok model :=
  eq_ok_of_toOption (by decide +kernel)

/-- Not all resolved models keep their read-only registers: the write of the field gets through to
the stored word. -/
theorem not_all_keep_readOnly :
    ((model.performAll [⟨.path "unit.status", .writeField "mode" 5⟩]).runOnMemory {}).2.log =
        [.read 0 0, .write 0 80] ∧
      ¬ ∀ (options : Options) (sections : List Yaml.Value) (m : Model),
        Model.ofSections options sections = .ok m → m.KeepsReadOnly := by
  refine ⟨by decide, fun hall => ?_⟩
  have hhandle : model.handle (.path "unit.status") = .ok handle := by decide
  have hmode := (hall {} document model resolved).fieldsReadOnly hhandle rfl "mode" mode (by decide)
  nomatch hmode

end StatusRegister

end RegisterMap
