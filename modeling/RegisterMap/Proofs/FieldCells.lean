import Mathlib.Logic.Function.Basic
import RegisterMap.Proofs.Handles
import RegisterMap.Proofs.Origins
import RegisterMap.Proofs.Operations
import RegisterMap.Proofs.Validity

/-!
# Registers as Files of Field Cells

A register whose fields do not touch each other behaves as if every field were a cell of its own.
The abstract machine of this module has one value for each field. The write of a field changes its
cell or clears all the others, and the write of a whole word sets them all; nothing is merged or
masked. The machine is told the operations and whether they succeeded, and after any run the fields
of the stored words have the values of its cells.

## Conventions

Cells are kept by the address of their register, which is enough because the handles of a run have
the same address only if they stand for the same register. Fields of one register are told apart by
themselves, since two equal fields would share their bits.

## Main results

* `RegisterHandle.shown_nextWord` — the word that the write of a field stores.
* `RegisterHandle.perform_shown` — one operation.
* `Model.performAll_shows` — a run, by induction on its acts.
* `Model.stored_fields_eq_cells` — runs on resolved models.
-/

namespace RegisterMap

/-! ### The abstract machine -/

/-- The **cells** of a register: the values of its fields. -/
abbrev Cells := BitField → Word

namespace Cells

/-- The cells that a word holds. -/
def ofWord (word : Word) : Cells := fun f => f.extract word

/-- Zeros, but for one field. -/
def only (f : BitField) (value : Word) : Cells := Function.update (fun _ => 0) f value

/-- The cells of a register after a successful write of a field. Without a word to start from, every
field but the written one becomes zero. -/
def writeField (cells : Cells) (r : Register) (f : BitField) (value : Word) : Cells :=
  match f.access, r.access.isReadable with
  | .readOnly, _ => cells
  | .writeOnly, _ => only f value
  | .readWrite, true => Function.update cells f value
  | .writeOneToClear, true | .readWriteOneToClear, true =>
    Function.update cells f (cells f &&& ~~~value)
  | .readWrite, false | .writeOneToClear, false | .readWriteOneToClear, false => only f value

/-- The cells of a register after a **successful operation**. -/
def succeed (cells : Cells) (r : Register) : Operation → Cells
  | .write word => ofWord word
  | .writeField name value =>
    match r.field? name with
    | some f => cells.writeField r f value
    | none => cells
  | .read | .readField _ | .resetValue => cells

/-- The cells of a register after an operation, which leaves them alone if it fails. -/
def next (cells : Cells) (r : Register) (operation : Operation) : Outcome → Cells
  | .ok _ => cells.succeed r operation
  | .error _ => cells

/-- A word **shows** the cells of a register in its fields. -/
def Shown (r : Register) (cells : Cells) (word : Word) : Prop :=
  ∀ f ∈ r.fields, f.extract word = cells f

/-- What a successful read tells about the cells is true. -/
def Answer (r : Register) (cells : Cells) : Operation → Outcome → Prop
  | .read, .ok word => ∃ w, word = some w ∧ Shown r cells w
  | .readField name, .ok value => ∃ f, r.field? name = some f ∧ value = some (cells f)
  | _, _ => True

end Cells

/-- The cells of all registers, by address. -/
abbrev CellFile := Address → Cells

namespace CellFile

/-- The cells that stored words hold. -/
def ofWords (words : Words) : CellFile := fun address => Cells.ofWord (words address)

variable (m : Model)

/-- The cells after an act with this outcome. -/
def next (cells : CellFile) (act : Act) (outcome : Outcome) : CellFile :=
  match m.handle act.target with
  | .ok h =>
    Function.update cells h.address
      ((cells h.address).next h.register act.operation outcome)
  | .error _ => cells

/-- The cells after a **run** of acts with these outcomes. -/
def run (cells : CellFile) : List Act → List Outcome → CellFile
  | act :: acts, outcome :: outcomes => run (cells.next m act outcome) acts outcomes
  | _, _ => cells

/-- There is one outcome for every act, and what successful reads tell about the cells is true at
their time. -/
def Answers (cells : CellFile) : List Act → List Outcome → Prop
  | [], [] => True
  | act :: acts, outcome :: outcomes =>
    (∀ h, m.handle act.target = .ok h →
      (cells h.address).Answer h.register act.operation outcome) ∧
      Answers (cells.next m act outcome) acts outcomes
  | _, _ => False

end CellFile

/-! ### Changing a word for a field -/

/-- The fields of the register **do not touch**, and all their bits exist. -/
structure Register.Celled (r : Register) : Prop where
  fields_apart : r.fields.Pairwise fun f g => Disjoint f.bits g.bits
  fields_within : ∀ f ∈ r.fields, f.bitEnd ≤ r.width
  width_le : r.width.toNat ≤ 64

namespace Register.Celled

variable {r : Register} {f g : BitField} {cells : Cells} {v w : Word}

/-- A field of a celled register ends **within the register**. -/
theorem within (hr : r.Celled) (hf : f ∈ r.fields) :
    f.bitOffset.toNat + f.bitWidth.toNat ≤ r.width.toNat :=
  BitField.le_width_of_bitEnd_le (hr.fields_within f hf) hr.width_le

/-- So it ends within a word. -/
theorem inWord (hr : r.Celled) (hf : f ∈ r.fields) : f.InWord :=
  (hr.within hf).trans hr.width_le

/-- A bit of one field is not a bit of another one. -/
theorem not_mem_bits (hr : r.Celled) (hf : f ∈ r.fields) (hg : g ∈ r.fields) (hne : g ≠ f) {n : ℕ}
    (hn : n ∈ g.bits) : n ∉ f.bits := by
  obtain ⟨i, hi⟩ := List.getElem?_of_mem hf
  obtain ⟨j, hj⟩ := List.getElem?_of_mem hg
  have hij : i ≠ j := by
    rintro rfl
    exact hne (Option.some.inj (hj.symm.trans hi))
  exact fun hn' => (disjoint_of_pairwise hr.fields_apart hi hj hij).le_bot ⟨hn', hn⟩

/-- A change of a word that leaves the bits of other fields alone shows as a change of one cell. -/
theorem shown_update (hr : r.Celled) (hf : f ∈ r.fields) (hw : cells.Shown r w) {w' : Word}
    (hself : f.extract w' = v) (hothers : ∀ n < 64, n ∉ f.bits → bit w' n = bit w n) :
    Cells.Shown r (Function.update cells f v) w' := by
  intro g hg
  by_cases hne : g = f
  · subst hne
    rw [Function.update_self, hself]
  · rw [Function.update_of_ne hne, ← hw g hg]
    have hin := hr.inWord hg
    exact BitField.extract_congr hin fun n hn =>
      hothers n (BitField.lt_of_mem_bits hin hn) (hr.not_mem_bits hf hg hne hn)

/-- A **merge** sets the cell of the field. -/
theorem shown_merge (hr : r.Celled) (hf : f ∈ r.fields) (hw : cells.Shown r w)
    (hv : v.toNat < 2 ^ f.bitWidth.toNat) :
    Cells.Shown r (Function.update cells f v) (w &&& ~~~f.mask ||| f.insert v) := by
  have hin := hr.inWord hf
  refine hr.shown_update hf hw ?_ fun n hlt hn => ?_
  · have hbits : ∀ n ∈ f.bits, bit (w &&& ~~~f.mask ||| f.insert v) n = bit (f.insert v) n := by
      intro n hn
      simp only [bit_or, bit_and, bit_not, BitField.bit_mask_of_mem hin hn]
      simp
    rw [BitField.extract_congr hin hbits, BitField.extract_insert_self hin hv]
  · simp only [bit_or, bit_and, bit_not, BitField.bit_mask_of_not_mem hin hn,
      BitField.bit_insert_of_not_mem hin hn]
    simp [hlt]

/-- **Clearing ones** clears them in the cell of the field. -/
theorem shown_clear (hr : r.Celled) (hf : f ∈ r.fields) (hw : cells.Shown r w) :
    Cells.Shown r (Function.update cells f (cells f &&& ~~~v)) (w &&& ~~~f.insert v) := by
  have hin := hr.inWord hf
  refine hr.shown_update hf hw ?_ fun n hlt hn => ?_
  · rw [BitField.extract_clear_self hin, hw f hf]
  · simp only [bit_and, bit_not, BitField.bit_insert_of_not_mem hin hn]
    simp [hlt]

/-- A word with nothing but the value of a field shows zeros elsewhere. -/
theorem shown_insert (hr : r.Celled) (hf : f ∈ r.fields) (hv : v.toNat < 2 ^ f.bitWidth.toNat) :
    Cells.Shown r (Cells.only f v) (f.insert v) := by
  have hin := hr.inWord hf
  have hzero : Cells.Shown r (fun _ => 0) 0 := fun g _ => g.extract_zero
  refine hr.shown_update hf hzero (BitField.extract_insert_self hin hv) fun n _ hn => ?_
  rw [BitField.bit_insert_of_not_mem hin hn, bit_zero]

/-- Cutting a word to the register's width is not seen by its fields. -/
theorem shown_wordMask (hr : r.Celled) (hw : cells.Shown r w) :
    cells.Shown r (w &&& r.wordMask) := by
  intro g hg
  rw [← hw g hg]
  exact BitField.extract_and_lowMask (hr.inWord hg) (hr.within hg)

end Register.Celled

/-! ### One operation -/

namespace RegisterHandle

variable {h : RegisterHandle} {b : MemoryBus} {cells : Cells}

/-- The word that the **write of a field** stores shows the cells after that write. -/
theorem shown_nextWord (hr : h.register.Celled) {f : BitField} (hf : f ∈ h.register.fields)
    {value current : Word} (hv : value.toNat < 2 ^ f.bitWidth.toNat) {plan : FieldWrite}
    (hplan : h.planFor f value = .ok plan) (hcells : cells.Shown h.register current) :
    (cells.writeField h.register f value).Shown h.register
      (h.nextWord plan (if plan.readsCurrent then current else 0)) := by
  refine hr.shown_wordMask ?_
  have hzero : Cells.Shown h.register (fun _ => 0) 0 := fun g _ => g.extract_zero
  unfold planFor at hplan
  rw [Cells.writeField]
  cases hread : h.register.access.isReadable <;> cases haccess : f.access <;>
    simp only [hread, haccess, reduceCtorEq, Except.ok.injEq] at hplan ⊢ <;> subst hplan
  case false.writeOnly => exact hr.shown_insert hf hv
  case false.readWrite => exact hr.shown_merge hf hzero hv
  case false.writeOneToClear => exact hr.shown_insert hf hv
  case false.readWriteOneToClear => exact hr.shown_insert hf hv
  case true.writeOnly => exact hr.shown_insert hf hv
  case true.readWrite => exact hr.shown_merge hf hcells hv
  case true.writeOneToClear => exact hr.shown_clear hf hcells
  case true.readWriteOneToClear => exact hr.shown_clear hf hcells

/-- The run of a read goes on with the stored word. -/
theorem run_readWord (hb : b.Plain) (k : Word → Script Outcome) :
    (h.readWord k).runOnMemory b =
      (k (b.words h.address)).runOnMemory
        (b.recorded (.read h.address (b.words h.address)) b.words) :=
  hb.run_call _ _

/-- The run of a write stores the word. -/
theorem run_writeWord (hb : b.Plain) (word : Word) :
    (h.writeWord word).runOnMemory b =
      (.ok none, b.recorded (.write h.address word) (b.words.set h.address word)) :=
  hb.run_call _ _

/-- **One operation** changes no word but that of its register, which shows the next cells
afterwards. -/
theorem perform_shown (hr : h.register.Celled) (hb : b.Plain)
    (hcells : cells.Shown h.register (b.words h.address)) (operation : Operation) :
    ∃ outcome after, (h.perform operation).runOnMemory b = (outcome, after) ∧
      (∀ x, x ≠ h.address → after.words x = b.words x) ∧
      (cells.next h.register operation outcome).Shown h.register (after.words h.address) ∧
      cells.Answer h.register operation outcome := by
  have hkept : ∀ x, x ≠ h.address → b.words x = b.words x := fun _ _ => rfl
  have hset (word : Word) : ∀ x, x ≠ h.address → b.words.set h.address word x = b.words x :=
    fun _ hx => Words.set_of_ne _ _ hx
  have hperforms := h.performs operation
  generalize h.perform operation = script at hperforms ⊢
  cases hperforms with
  | refused e => exact ⟨_, _, rfl, hkept, hcells, by cases operation <;> trivial⟩
  | resetValue => exact ⟨_, _, rfl, hkept, hcells, trivial⟩
  | read readable =>
      rw [run_readWord hb]
      exact ⟨_, _, rfl, hkept, hcells, _, rfl, hcells⟩
  | @write word writable fits =>
      rw [run_writeWord hb]
      refine ⟨_, _, rfl, hset word, ?_, trivial⟩
      change (Cells.ofWord word).Shown h.register (b.words.set h.address word h.address)
      rw [Words.set_same]
      exact fun f _ => rfl
  | @readField name f found register_readable readable =>
      rw [run_readWord hb]
      refine ⟨_, _, rfl, hkept, hcells, f, found, ?_⟩
      exact congrArg some (hcells f (List.mem_of_find?_eq_some found))
  | @updateField name value f plan found planned fits reads =>
      rw [run_readWord hb, run_writeWord (hb.recorded _ _)]
      refine ⟨_, _, rfl, hset _, ?_, trivial⟩
      have hnext := shown_nextWord hr (List.mem_of_find?_eq_some found) fits planned hcells
      rw [if_pos reads] at hnext
      simpa only [Cells.next, Cells.succeed, found, MemoryBus.recorded, Words.set_same] using hnext
  | @storeField name value f plan found planned fits blind =>
      rw [run_writeWord hb]
      refine ⟨_, _, rfl, hset _, ?_, trivial⟩
      have hnext := shown_nextWord hr (List.mem_of_find?_eq_some found) fits planned hcells
      rw [if_neg (Bool.not_eq_true _ ▸ blind)] at hnext
      simpa only [Cells.next, Cells.succeed, found, MemoryBus.recorded, Words.set_same] using hnext

end RegisterHandle

/-! ### Runs -/

/-- The stored words **show the cells** of all these targets. -/
def CellFile.Shown (m : Model) (targets : Set Target) (cells : CellFile) (words : Words) : Prop :=
  ∀ t ∈ targets, ∀ h, m.handle t = .ok h → (cells h.address).Shown h.register (words h.address)

namespace Model

variable {m : Model} {targets : Set Target}

/-- One **act** keeps the cells shown. -/
theorem perform_shows
    (hcelled : ∀ t ∈ targets, ∀ h, m.handle t = .ok h → h.register.Celled)
    (hapart : ∀ t ∈ targets, ∀ u ∈ targets, ∀ h k, m.handle t = .ok h → m.handle u = .ok k →
      h.address = k.address → h.register = k.register)
    {act : Act} (hact : act.target ∈ targets) {b : MemoryBus} (hb : b.Plain) {cells : CellFile}
    (hcells : cells.Shown m targets b.words) :
    ∃ outcome after, (m.perform act).runOnMemory b = (outcome, after) ∧
      (cells.next m act outcome).Shown m targets after.words ∧
      ∀ h, m.handle act.target = .ok h →
        (cells h.address).Answer h.register act.operation outcome := by
  rw [perform]
  cases hh : m.handle act.target with
  | error e =>
      refine ⟨_, _, rfl, ?_, fun h hk => ?_⟩
      · simpa only [CellFile.next, hh] using hcells
      · cases hk
  | ok h =>
      obtain ⟨outcome, after, hrun, hsame, hshown, hanswer⟩ := RegisterHandle.perform_shown
        (hcelled _ hact h hh) hb (hcells _ hact h hh) act.operation
      refine ⟨outcome, after, hrun, fun t ht k hk => ?_, fun k hk => ?_⟩
      · simp only [CellFile.next, hh]
        by_cases hx : k.address = h.address
        · rw [hx, Function.update_self, hapart t ht _ hact k h hk hh hx]
          exact hshown
        · rw [Function.update_of_ne hx, hsame _ hx]
          exact hcells t ht k hk
      · obtain rfl := Except.ok.inj hk
        exact hanswer

/-- A **run** keeps the cells shown, whatever its acts are. -/
theorem performAll_shows
    (hcelled : ∀ t ∈ targets, ∀ h, m.handle t = .ok h → h.register.Celled)
    (hapart : ∀ t ∈ targets, ∀ u ∈ targets, ∀ h k, m.handle t = .ok h → m.handle u = .ok k →
      h.address = k.address → h.register = k.register)
    {acts : List Act} (hacts : ∀ act ∈ acts, act.target ∈ targets) {b : MemoryBus} (hb : b.Plain)
    {cells : CellFile} (hcells : cells.Shown m targets b.words) :
    ∃ outcomes after, (m.performAll acts).runOnMemory b = (outcomes, after) ∧
      (cells.run m acts outcomes).Shown m targets after.words ∧ cells.Answers m acts outcomes := by
  induction acts generalizing b cells with
  | nil => exact ⟨[], b, rfl, hcells, trivial⟩
  | cons act acts ih =>
      obtain ⟨hact, hacts⟩ := List.forall_mem_cons.mp hacts
      obtain ⟨outcome, middle, hrun, hshown, hanswer⟩ :=
        perform_shows hcelled hapart hact hb hcells
      have hmiddle : middle.Plain := by
        have hplain := Script.plain_runOnMemory (s := m.perform act) hb
        rwa [hrun] at hplain
      obtain ⟨outcomes, after, hrest, hshown, hanswers⟩ := ih hacts hmiddle hshown
      refine ⟨outcome :: outcomes, after, ?_, hshown, hanswer, hanswers⟩
      rw [Script.runOnMemory] at hrun hrest ⊢
      rw [run_performAll_cons, hrun, hrest]

/-! ### Resolved models -/

/-- Without violations about overlaps and bounds, the fields of every register are apart and within
the register. -/
theorem fields_apart_and_within
    (hviolations : ∀ v ∈ m.violations, v.kind ≠ .fieldOverlap ∧ v.kind ≠ .fieldBounds)
    {map : MemoryMap} (hmap : map ∈ m.memoryMaps) {b : AddressBlock} (hb : b ∈ map.blocks)
    {r : Register} (hr : r ∈ b.registers) :
    (r.fields.Pairwise fun f g => Disjoint f.bits g.bits) ∧
      ∀ f ∈ r.fields, f.bitEnd ≤ r.width := by
  obtain ⟨n, hn⟩ := List.getElem?_of_mem hmap
  obtain ⟨i, hi⟩ := List.getElem?_of_mem hb
  obtain ⟨k, hk⟩ := List.getElem?_of_mem hr
  let e : RegisterEntry := { map, block := b, register := r }
  have he : m.RegisterAt ((n, i), k) e := ⟨⟨hn, hi⟩, hk⟩
  -- A report on an offence is among the violations, and its kind is that of the offence.
  have hkind {o : Offence} {v : Violation} (ho : m.Reports o v) :
      ∃ w, m.Reports o w ∧ w.kind ≠ .fieldOverlap ∧ w.kind ≠ .fieldBounds := by
    obtain ⟨w, hw, hreports⟩ := ho.exists_violation
    exact ⟨w, hreports, hviolations w hw⟩
  constructor
  · have hclash : ∀ q v, ¬ ClashReport (·.bitOffset.toUInt64) (·.bitEnd.toUInt64) (·.name)
        .fieldOverlap e.path r.fields q v := by
      intro q v hv
      obtain ⟨w, ⟨_, _, _, _, hsaid⟩, hnot, -⟩ :=
        hkind (o := .sharedBits ((n, i), k) q) ⟨e, he, hv⟩
      exact hnot hsaid.1
    have hapart := no_clashReport_iff.mp hclash
    simpa only [points_of_field] using hapart
  · intro f hf
    by_contra hpast
    obtain ⟨j, hj⟩ := List.getElem?_of_mem hf
    let field : FieldEntry := { toRegisterEntry := e, field := f }
    obtain ⟨v, hv⟩ := Violation.exists_says .fieldBounds field.path []
    obtain ⟨w, ⟨_, _, _, hsaid⟩, -, hnot⟩ := hkind (o := .pastRegister ((n, i), k) j)
      ⟨field, ⟨he, hj⟩, UInt32.not_le.mp hpast, hv⟩
    exact hnot hsaid.1

/-- The registers of a resolved model are **made of cells**, if there are no violations about
overlaps and bounds. -/
theorem celled_of_resolved {options : Options} {sections : List Yaml.Value}
    (hresolved : Model.ofSections options sections = .ok m)
    (hviolations : ∀ v ∈ m.violations, v.kind ≠ .fieldOverlap ∧ v.kind ≠ .fieldBounds)
    {map : MemoryMap} (hmap : map ∈ m.memoryMaps) {b : AddressBlock} (hb : b ∈ map.blocks)
    {r : Register} (hr : r ∈ b.registers) : r.Celled := by
  have hfrom := Model.ofSections_resolvedFrom options sections m hresolved
  obtain ⟨hapart, hwithin⟩ := fields_apart_and_within hviolations hmap hb hr
  refine ⟨hapart, hwithin, ?_⟩
  have hwidth := ((hfrom map hmap b hb).registers_from _ hr).width_supported
  simp only [supportedWidths, List.mem_cons, List.not_mem_nil, or_false] at hwidth
  rcases hwidth with hwidth | hwidth | hwidth | hwidth <;> rw [hwidth] <;> decide

/-- So are the registers of all handles. -/
theorem celled_of_handle {options : Options} {sections : List Yaml.Value}
    (hresolved : Model.ofSections options sections = .ok m)
    (hviolations : ∀ v ∈ m.violations, v.kind ≠ .fieldOverlap ∧ v.kind ≠ .fieldBounds)
    {target : Target} {h : RegisterHandle} (hh : m.handle target = .ok h) : h.register.Celled := by
  have hfrom := Model.ofSections_resolvedFrom options sections m hresolved
  obtain ⟨map, hmap, b, hb, hr, -⟩ :=
    exists_block_of_handle (fun map hmap b hb => (hfrom map hmap b hb).expanded) hh
  exact celled_of_resolved hresolved hviolations hmap hb hr

/-- **A register is a file of independent cells.** After any run of acts on a resolved model without
violations about overlaps and bounds, on a plain bus and through handles that have the same address
only for the same register, the fields of the stored words are the cells of the abstract machine.
What the reads of the run told was what the cells were at their time. -/
theorem stored_fields_eq_cells {options : Options} {sections : List Yaml.Value}
    (hresolved : Model.ofSections options sections = .ok m)
    (hviolations : ∀ v ∈ m.violations, v.kind ≠ .fieldOverlap ∧ v.kind ≠ .fieldBounds)
    (hapart : ∀ t ∈ targets, ∀ u ∈ targets, ∀ h k, m.handle t = .ok h → m.handle u = .ok k →
      h.address = k.address → h.register = k.register)
    {acts : List Act} (hacts : ∀ act ∈ acts, act.target ∈ targets) {b : MemoryBus} (hb : b.Plain) :
    ∃ outcomes after, (m.performAll acts).runOnMemory b = (outcomes, after) ∧
      (∀ t ∈ targets, ∀ h, m.handle t = .ok h → ∀ f ∈ h.register.fields,
        f.extract (after.words h.address) =
          (CellFile.ofWords b.words).run m acts outcomes h.address f) ∧
      (CellFile.ofWords b.words).Answers m acts outcomes :=
  performAll_shows (fun _ _ _ hh => celled_of_handle hresolved hviolations hh) hapart hacts hb
    fun _ _ _ _ _ _ => rfl

end Model

/-! ### A register with two fields -/

namespace TwoFields

/-- A document with one register. -/
def document : List Yaml.Value :=
  [.map [(.str "memoryMaps", .seq [.map
    [(.str "name", .str "soc"), (.str "addressBlocks", .seq [.map
      [(.str "name", .str "unit"), (.str "offset", .int 0), (.str "registers", .seq [.map
        [(.str "name", .str "control"), (.str "fields", .seq
          [.map [(.str "name", .str "mode"), (.str "bitOffset", .int 4), (.str "bitWidth", .int 4)],
           .map [(.str "name", .str "flags"), (.str "bitOffset", .int 8), (.str "bitWidth", .int 8),
             (.str "access", .str "rw1c")]])]])]])]])]]

/-- The field that is set. -/
def mode : BitField := { name := "mode", bitOffset := 4, bitWidth := 4, access := .readWrite }

/-- The field whose ones are cleared. -/
def flags : BitField :=
  { name := "flags", bitOffset := 8, bitWidth := 8, access := .readWriteOneToClear }

/-- The register of the document. -/
def control : Register :=
  { name := "control", offset := 0, width := 32, access := .readWrite, fields := [mode, flags] }

/-- The model of the document. -/
def model : Model :=
  { memoryMaps := [{ name := "soc", blocks := [
      { name := "unit", baseOffset := 0, size := 64, registers := [control] }] }] }

/-- The document resolves to the register. -/
theorem resolved : Model.ofSections {} document = .ok model :=
  eq_ok_of_toOption (by decide +kernel)

/-- The model is sound. -/
theorem sound : model.Sound := by
  have hcontrol : control.Sound :=
    ⟨by simp [control, mode, flags, BitField.bits, BitField.bitEnd, satAdd32_toNat, UInt32.size],
      by decide, by simp [control], by simp [control, mode, flags], by decide⟩
  refine ⟨fun kind => by cases kind <;> decide, by decide, ?_⟩
  exact List.forall_mem_singleton.mpr
    (MemoryMap.sound_of_block rfl (AddressBlock.sound_of_register rfl rfl hcontrol))

/-- The one target of the acts. -/
def targets : Set Target := {.path "unit.control"}

/-- The fields are written one after the other; the last value does not fit. -/
def acts : List Act :=
  [⟨.path "unit.control", .writeField "mode" 5⟩, ⟨.path "unit.control", .writeField "flags" 6⟩,
    ⟨.path "unit.control", .writeField "mode" 16⟩]

/-- The first two acts succeed, and the last one is refused. -/
def outcomes : List Outcome :=
  [.ok none, .ok none, .error (.valueOutOfRange "soc.unit.control.mode" 16 4)]

/-- From the word `0xf00`, the acts set one field to 5 and clear two of the four ones of the other
one. The cells of both fields hold what is stored then. -/
theorem stored_fields_eq_cells_acts :
    ∃ after, (model.performAll acts).runOnMemory { words := fun _ => 0xf00 } = (outcomes, after) ∧
      after.words 0 = 0x950 ∧
      (CellFile.ofWords fun _ => 0xf00).run model acts outcomes 0 mode = 5 ∧
      (CellFile.ofWords fun _ => 0xf00).run model acts outcomes 0 flags = 9 ∧
      (∀ f ∈ [mode, flags], f.extract (after.words 0) =
        (CellFile.ofWords fun _ => 0xf00).run model acts outcomes 0 f) ∧
      (CellFile.ofWords fun _ => 0xf00).Answers model acts outcomes := by
  have hhandle : model.handle (.path "unit.control") = .ok ⟨"soc.unit.control", 0, control⟩ := by
    decide
  have hviolations : ∀ v ∈ model.violations, v.kind ≠ .fieldOverlap ∧ v.kind ≠ .fieldBounds :=
    fun v hv => ⟨sound.kind_ne rfl v hv, sound.kind_ne rfl v hv⟩
  have hapart : ∀ t ∈ targets, ∀ u ∈ targets, ∀ h k, model.handle t = .ok h →
      model.handle u = .ok k → h.address = k.address → h.register = k.register := by
    rintro _ rfl _ rfl h k hh hk -
    rw [Except.ok.inj (hh.symm.trans hk)]
  have hacts : ∀ act ∈ acts, act.target ∈ targets := by
    simp [acts, targets]
  obtain ⟨found, after, hrun, hfields, hanswers⟩ := Model.stored_fields_eq_cells resolved
    hviolations hapart hacts (b := { words := fun _ => 0xf00 }) ⟨rfl, rfl⟩
  have hfound : found = outcomes := (congrArg Prod.fst hrun).symm
  have hafter : after.words 0 = 0x950 := (congrArg (·.2.words 0) hrun).symm
  subst hfound
  have hcells := hfields _ rfl _ hhandle
  refine ⟨after, hrun, hafter, ?_, ?_, hcells, hanswers⟩
  · rw [← hcells mode (by simp [control]), hafter]
    decide
  · rw [← hcells flags (by simp [control]), hafter]
    decide

end TwoFields

end RegisterMap
