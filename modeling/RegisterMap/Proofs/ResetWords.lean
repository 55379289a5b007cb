import RegisterMap.Proofs.FieldCells

/-!
# Reset Words

A register that gives no reset value of its own starts with the reset values of its fields, each
moved to its place and all of them put together into one word. Whether a field can be read back from
that word is a matter of all fields at once: the values must not be too wide, the fields must have
room in the register, and no two of them may share a bit. Where nothing of the kind is reported, the
word shows to every field the reset value that was declared for it, and has no other bits.

The argument goes through the single bits of the word. A bit within a field can only come from that
field, and a bit outside of all fields can come from none.

## Main results

* `bit_foldl_or` — the bits of words that are put together.
* `Register.bit_composedReset_iff` — the bits of a reset word, and where they come from.
* `Register.extract_composedReset`, `Register.bit_composedReset_of_outside` — what the fields see of
  it, and what is left beside them.
* `Model.composedReset_exact` — the reset words of a resolved model.
-/

namespace RegisterMap

/-! ### Words put together -/

/-- A bit of words that are put together is a bit of **one of them**. -/
theorem bit_foldl_or (words : List Word) (acc : Word) (n : ℕ) :
    bit (words.foldl (· ||| ·) acc) n = (bit acc n || words.any (bit · n)) := by
  induction words generalizing acc with
  | nil => rw [List.foldl_nil, List.any_nil, Bool.or_false]
  | cons w words ih => rw [List.foldl_cons, ih, bit_or, List.any_cons, Bool.or_assoc]

namespace BitField

/-- What the field **contributes** to a reset word: its reset value in its place, if it has one. -/
def resetBits (f : BitField) : Word := (f.resetValue.map f.insert).getD 0

variable {f : BitField}

/-- A field contributes no bits but its own. -/
theorem bit_resetBits_of_not_mem (hin : f.InWord) {n : ℕ} (hn : n ∉ f.bits) :
    bit f.resetBits n = false := by
  rw [resetBits]
  cases f.resetValue with
  | none => exact bit_zero n
  | some v => exact bit_insert_of_not_mem hin hn

/-- A field sees its reset value in what it contributes. -/
theorem extract_resetBits (hin : f.InWord)
    (hfits : ∀ v ∈ f.resetValue, v.toNat < 2 ^ f.bitWidth.toNat) :
    f.extract f.resetBits = f.resetValue.getD 0 := by
  rw [resetBits]
  cases hreset : f.resetValue with
  | none => exact f.extract_zero
  | some v => exact extract_insert_self hin (hfits v hreset)

end BitField

/-! ### The reset word of a register -/

namespace Register

variable {r : Register}

/-- A reset word always fits the register. -/
theorem composedReset_lt (r : Register) : r.composedReset.toNat < 2 ^ r.width.toNat := by
  rw [composedReset]
  cases r.resetValue with
  | none => exact and_lowMask_lt _ _
  | some v => exact and_lowMask_lt _ _

/-- A reset value of the register's own is the reset word, if it fits. -/
theorem composedReset_eq {v : Word} (hreset : r.resetValue = some v)
    (hfits : v.toNat < 2 ^ r.width.toNat) : r.composedReset = v := by
  rw [composedReset, hreset]
  exact and_lowMask_of_lt hfits

/-- Without such a value, the bits of the reset word are those that a field **contributes** and that
exist in the register. -/
theorem bit_composedReset_iff (hreset : r.resetValue = none) {n : ℕ} :
    bit r.composedReset n = true ↔
      n < r.width.toNat ∧ ∃ f ∈ r.fields, bit f.resetBits n = true := by
  have hparts : (r.fields.filterMap fun f => f.resetValue.map f.insert).any (bit · n) = true ↔
      ∃ f ∈ r.fields, bit f.resetBits n = true := by
    simp only [List.any_eq_true, List.mem_filterMap]
    constructor
    · rintro ⟨w, ⟨f, hf, hw⟩, hbit⟩
      refine ⟨f, hf, ?_⟩
      rwa [BitField.resetBits, hw]
    · rintro ⟨f, hf, hbit⟩
      rw [BitField.resetBits] at hbit
      cases hw : f.resetValue.map f.insert with
      | none =>
          rw [hw, Option.getD_none, bit_zero] at hbit
          nomatch hbit
      | some w =>
          rw [hw] at hbit
          exact ⟨w, ⟨f, hf, hw⟩, hbit⟩
  have hcomposed : r.composedReset =
      (r.fields.filterMap fun f => f.resetValue.map f.insert).foldl (· ||| ·) 0 &&& r.wordMask := by
    rw [composedReset, hreset]
  rw [hcomposed, bit_and, bit_foldl_or, bit_zero, Bool.false_or, wordMask, bit_lowMask,
    Bool.and_eq_true, Bool.and_eq_true, decide_eq_true_eq, decide_eq_true_eq, hparts]
  constructor
  · rintro ⟨hfield, hwidth, -⟩
    exact ⟨hwidth, hfield⟩
  · rintro ⟨hwidth, f, hf, hbit⟩
    exact ⟨⟨f, hf, hbit⟩, hwidth, lt_of_bit hbit⟩

/-- No bit of the reset word is **outside of all fields**. -/
theorem bit_composedReset_of_outside (hr : r.Celled) (hreset : r.resetValue = none) {n : ℕ}
    (hn : ∀ f ∈ r.fields, n ∉ f.bits) : bit r.composedReset n = false := by
  rw [Bool.eq_false_iff, ne_eq, bit_composedReset_iff hreset]
  rintro ⟨-, f, hf, hbit⟩
  rw [BitField.bit_resetBits_of_not_mem (hr.inWord hf) (hn f hf)] at hbit
  nomatch hbit

/-- Within a field, the reset word has just what **this field** contributes. -/
theorem bit_composedReset_of_mem (hr : r.Celled) (hreset : r.resetValue = none) {f : BitField}
    (hf : f ∈ r.fields) {n : ℕ} (hn : n ∈ f.bits) : bit r.composedReset n = bit f.resetBits n := by
  have hwidth : n < r.width.toNat := by
    have hwithin := hr.within hf
    rw [BitField.mem_bits (hr.inWord hf)] at hn
    omega
  rw [Bool.eq_iff_iff, bit_composedReset_iff hreset]
  constructor
  · rintro ⟨-, g, hg, hbit⟩
    by_cases hgf : g = f
    · rwa [← hgf]
    · -- Another field has no bit here.
      have hapart := hr.not_mem_bits hg hf (Ne.symm hgf) hn
      rw [BitField.bit_resetBits_of_not_mem (hr.inWord hg) hapart] at hbit
      nomatch hbit
  · intro hbit
    exact ⟨hwidth, f, hf, hbit⟩

/-- Every field sees **its own reset value** in the reset word. -/
theorem extract_composedReset (hr : r.Celled) (hreset : r.resetValue = none) {f : BitField}
    (hf : f ∈ r.fields) (hfits : ∀ v ∈ f.resetValue, v.toNat < 2 ^ f.bitWidth.toNat) :
    f.extract r.composedReset = f.resetValue.getD 0 := by
  have hin := hr.inWord hf
  rw [← BitField.extract_resetBits hin hfits]
  exact BitField.extract_congr hin fun n hn => bit_composedReset_of_mem hr hreset hf hn

end Register

/-! ### Resolved models -/

namespace Model

variable {m : Model}

/-- Without violations about reset values, those of a register and of its fields **fit**. -/
theorem resets_fit (hviolations : ∀ v ∈ m.violations, v.kind ≠ .resetRange) {e : RegisterEntry}
    (he : e ∈ m.registers) :
    (∀ v ∈ e.register.resetValue, v.toNat < 2 ^ e.register.width.toNat) ∧
      ∀ f ∈ e.register.fields, ∀ v ∈ f.resetValue, v.toNat < 2 ^ f.bitWidth.toNat := by
  obtain ⟨p, hp⟩ := m.lists_registers.exists_index he
  refine e.no_resetReport_iff.mp fun n v hv => ?_
  obtain ⟨w, hw, _, -, hreport⟩ := Reports.exists_violation (o := .badReset p n) ⟨e, hp, hv⟩
  refine hviolations w hw ?_
  cases n with
  | none => obtain ⟨_, -, -, hsaid⟩ := hreport; exact hsaid.1
  | some n => obtain ⟨_, -, _, -, -, hsaid⟩ := hreport; exact hsaid.1

/-- **Reset words.** The reset word of any register fits its width. In a resolved model without
violations about overlaps of fields, their bounds and reset values, it is the register's own reset
value where there is one. Where there is none, every field sees the reset value that it declares, or
0 if it declares none, and the word has no bits outside of its fields. -/
theorem composedReset_exact :
    (∀ r : Register, r.composedReset.toNat < 2 ^ r.width.toNat) ∧
    ∀ (options : Options) (sections : List Yaml.Value) (m : Model),
      Model.ofSections options sections = .ok m →
      (∀ v ∈ m.violations,
        v.kind ≠ .fieldOverlap ∧ v.kind ≠ .fieldBounds ∧ v.kind ≠ .resetRange) →
      ∀ e ∈ m.registers,
        (∀ v, e.register.resetValue = some v → e.register.composedReset = v) ∧
        (e.register.resetValue = none →
          (∀ f ∈ e.register.fields,
            f.extract e.register.composedReset = f.resetValue.getD 0) ∧
          ∀ n, (∀ f ∈ e.register.fields, n ∉ f.bits) →
            bit e.register.composedReset n = false) := by
  refine ⟨Register.composedReset_lt, ?_⟩
  intro options sections m hresolved hviolations e he
  obtain ⟨hown, hfields⟩ := resets_fit (fun v hv => (hviolations v hv).2.2) he
  obtain ⟨hmap, hblock, hregister⟩ := mem_registers_iff.mp he
  have hcelled : e.register.Celled := celled_of_resolved hresolved
    (fun v hv => ⟨(hviolations v hv).1, (hviolations v hv).2.1⟩) hmap hblock hregister
  refine ⟨fun v hv => Register.composedReset_eq hv (hown v hv), fun hreset => ⟨?_, ?_⟩⟩
  · intro f hf
    exact Register.extract_composedReset hcelled hreset hf (hfields f hf)
  · intro n hn
    exact Register.bit_composedReset_of_outside hcelled hreset hn

end Model

/-! ### A register with reset values in its fields -/

namespace ResetFields

/-- A document with a register that has reset values in two of its fields, and a field without one
between them. -/
def document : List Yaml.Value :=
  [.map [(.str "memoryMaps", .seq [.map
    [(.str "name", .str "soc"), (.str "addressBlocks", .seq [.map
      [(.str "name", .str "unit"), (.str "offset", .int 0), (.str "registers", .seq [.map
        [(.str "name", .str "control"), (.str "fields", .seq
          [.map [(.str "name", .str "mode"), (.str "bits", .str "[7:4]"), (.str "reset", .int 5)],
           .map [(.str "name", .str "level"), (.str "bits", .str "[15:8]")],
           .map [(.str "name", .str "state"), (.str "bits", .str "[31:28]"),
             (.str "reset", .int 15)]])]])]])]])]]

def mode : BitField :=
  { name := "mode", bitOffset := 4, bitWidth := 4, access := .readWrite, resetValue := some 5 }

def level : BitField := { name := "level", bitOffset := 8, bitWidth := 8, access := .readWrite }

def state : BitField :=
  { name := "state", bitOffset := 28, bitWidth := 4, access := .readWrite, resetValue := some 15 }

/-- The register of the document. -/
def control : Register :=
  { name := "control", offset := 0, width := 32, access := .readWrite
    fields := [mode, level, state] }

/-- The block of the document. -/
def unit : AddressBlock := { name := "unit", baseOffset := 0, size := 64, registers := [control] }

/-- The model of the document. -/
def model : Model := { memoryMaps := [{ name := "soc", blocks := [unit] }] }

/-- The register, in its place. -/
def entry : RegisterEntry :=
  { map := { name := "soc", blocks := [unit] }, block := unit, register := control }

/-- The document resolves to the register. -/
theorem resolved : Model.ofSections {} document = .ok model :=
  eq_ok_of_toOption (by decide +kernel)

/-- The model is sound. -/
theorem sound : model.Sound := by
  have hcontrol : control.Sound := by
    refine ⟨?_, by decide, by simp [control], by simp [control, mode, level, state], by decide⟩
    simp [control, mode, level, state, BitField.bits, BitField.bitEnd, satAdd32_toNat, UInt32.size]
  refine ⟨fun kind => by cases kind <;> decide, by decide, ?_⟩
  exact List.forall_mem_singleton.mpr
    (MemoryMap.sound_of_block rfl (AddressBlock.sound_of_register rfl rfl hcontrol))

/-- The three fields see 5, 0 and 15, and the lowest four bits are clear. -/
theorem composedReset_exact_fields :
    control.composedReset = 0xf0000050 ∧ control.composedReset.toNat < 2 ^ 32 ∧
      mode.extract control.composedReset = 5 ∧ level.extract control.composedReset = 0 ∧
      state.extract control.composedReset = 15 ∧ bit control.composedReset 3 = false := by
  have hviolations : ∀ v ∈ model.violations,
      v.kind ≠ .fieldOverlap ∧ v.kind ≠ .fieldBounds ∧ v.kind ≠ .resetRange :=
    fun v hv => ⟨sound.kind_ne rfl v hv, sound.kind_ne rfl v hv, sound.kind_ne rfl v hv⟩
  obtain ⟨hfits, hwords⟩ := Model.composedReset_exact
  obtain ⟨-, hnone⟩ := hwords {} document model resolved hviolations entry List.mem_cons_self
  obtain ⟨hseen, houtside⟩ := hnone rfl
  refine ⟨by decide, hfits control, hseen mode (by decide), hseen level (by decide),
    hseen state (by decide), houtside 3 ?_⟩
  simp [entry, control, mode, level, state, BitField.bits]

end ResetFields

end RegisterMap
