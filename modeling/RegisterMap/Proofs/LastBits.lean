import RegisterMap.Model.Inspection
import RegisterMap.Proofs.Layout

/-!
# The Last Bit of a Field

Reports and views show a field by its last and its first bit. The last bit is one below the end of
the field, and nothing at these places keeps the end from being 0, which it is for a field without
bits at position 0: then the subtraction would run below 0. Each place is safe for a reason of its
own that is settled elsewhere. Fields that overlap have a bit in common, because the sweep drops
empty intervals; a field that reaches past its register ends behind some bit; and a field of a
document was given at least one bit when it was placed, so that its end, even where it is clamped to
32 bits, is not 0.

To say this of the reports and views as a whole, each of them is taken twice: with a **checked
subtraction**, which has no result below 0, and with one that wraps. The text around the bits is the
same definition both times. With the checked subtraction there is no report or view where a last bit
is missing, so it is enough to show that there is one, and that it is the one that is given without
the check.

## Main results

* `BitField.lastBit?_eq_some_iff` — when the checked subtraction has a result.
* `RegisterEntry.bitEnd_pos_of_overlapping`, `FieldEntry.bitEnd_pos_of_outOfBounds` — the fields
  that a validation reports.
* `Model.violations?_eq` — validating any model.
* `Model.treeWith_eq_some`, `RegisterEntry.detailsWith_eq_some` — views of fields that can be shown.
* `Model.inspect_ne_overflow` — inspecting a model whose registers are well formed.
* `Model.lastBits_exact` — validating any model and viewing a resolved one.
-/

namespace RegisterMap

/-! ### A checked subtraction -/

namespace BitField

variable {f : BitField}

/-- The subtraction has a result, and the right one, exactly for fields that **do not end at 0**. -/
theorem lastBit?_eq_some_iff : f.lastBit? = some f.lastBit ↔ 0 < f.bitEnd := by
  rw [UInt32.lt_iff_toNat_lt, UInt32.toNat_zero, lastBit?, nat32?_eq_some_iff]
  constructor
  · intro h
    omega
  · intro hpos
    have hone : (1 : UInt32) ≤ f.bitEnd := UInt32.le_iff_toNat_le.mpr hpos
    rw [lastBit, UInt32.toNat_sub_of_le _ _ hone, UInt32.toNat_one]
    omega

/-- The bits of a field that does not end at 0 can be **shown**. -/
theorem bitsText?_eq (h : 0 < f.bitEnd) : f.bitsText? = some f.bitsText := by
  rw [bitsText?, lastBit?_eq_some_iff.mpr h]
  rfl

/-- A field with bits does not end at 0, **wherever it starts**. -/
theorem bitEnd_pos_of_bitWidth (h : 1 ≤ f.bitWidth) : 0 < f.bitEnd := by
  rw [UInt32.le_iff_toNat_le, UInt32.toNat_one] at h
  rw [UInt32.lt_iff_toNat_lt, UInt32.toNat_zero, bitEnd, satAdd32_toNat, UInt32.size]
  omega

end BitField

/-! ### Lists of results -/

section Lists

variable {α β : Type} {l : List α}

/-- Where every element has its result, **the list has them all**. -/
theorem mapM_eq_some {f : α → Option β} {g : α → Id β} (h : ∀ a ∈ l, f a = some (g a).run) :
    l.mapM f = some (l.mapM g).run := by
  induction l with
  | nil => rfl
  | cons a l ih =>
      obtain ⟨ha, hl⟩ := List.forall_mem_cons.mp h
      rw [List.mapM_cons, List.mapM_cons, ha, ih hl]
      rfl

/-- Where every element has its results, the list has them **one after the other**. -/
theorem flatMapM_eq_some {f : α → Option (List β)} {g : α → Id (List β)}
    (h : ∀ a ∈ l, f a = some (g a).run) : l.flatMapM f = some (l.flatMapM g).run := by
  induction l with
  | nil => rfl
  | cons a l ih =>
      obtain ⟨ha, hl⟩ := List.forall_mem_cons.mp h
      rw [List.flatMapM_cons, List.flatMapM_cons, ha, ih hl]
      rfl

/-- Without an effect, results are **joined** as lists are. -/
theorem idRun_flatMapM (g : α → List β) :
    (l.flatMapM fun a => (pure (g a) : Id (List β))).run = l.flatMap g := by
  induction l with
  | nil => rfl
  | cons a l ih =>
      rw [List.flatMapM_cons, List.flatMap_cons, ← ih]
      rfl

end Lists

/-! ### Validating -/

namespace RegisterEntry

/-- The pairs of fields that share bits, if both of each pair **have a last bit**. -/
def fieldOverlaps? (e : RegisterEntry) : Option (List Violation) :=
  (overlapping (·.bitOffset.toUInt64) (·.bitEnd.toUInt64) e.register.fields).mapM
    fun (a, b) => return e.fieldOverlap a b (← a.bitsText?) (← b.bitsText?)

/-- Fields that overlap do not end at 0: **each of them has a bit**, wherever it is. -/
theorem bitEnd_pos_of_overlapping {e : RegisterEntry} {p : BitField × BitField}
    (h : p ∈ overlapping (·.bitOffset.toUInt64) (·.bitEnd.toUInt64) e.register.fields) :
    0 < p.1.bitEnd ∧ 0 < p.2.bitEnd := by
  obtain ⟨position, hclash⟩ := (lists_overlapping _ _ _).exists_index h
  obtain ⟨hfirst, hsecond, -, -⟩ := (Interval.not_disjoint_points_iff _ _).mp hclash.share
  simp only [Interval.nonempty, spanned, decide_eq_true_eq, UInt64.lt_iff_toNat_lt,
    UInt32.toNat_toUInt64] at hfirst hsecond
  exact ⟨UInt32.lt_iff_toNat_lt.mpr (Nat.zero_lt_of_lt hfirst),
    UInt32.lt_iff_toNat_lt.mpr (Nat.zero_lt_of_lt hsecond)⟩

/-- The overlaps of the fields of **any register** can be reported. -/
theorem fieldOverlaps?_eq (e : RegisterEntry) : e.fieldOverlaps? = some e.fieldOverlaps := by
  let report (p : BitField × BitField) : Id Violation :=
    pure (e.fieldOverlap p.1 p.2 p.1.bitsText p.2.bitsText)
  have hreport : e.fieldOverlaps = (List.mapM report _).run := List.idRun_mapM.symm
  rw [hreport]
  refine mapM_eq_some fun p hp => ?_
  obtain ⟨hfirst, hsecond⟩ := bitEnd_pos_of_overlapping hp
  simp only [BitField.bitsText?_eq hfirst, BitField.bitsText?_eq hsecond]
  rfl

end RegisterEntry

namespace FieldEntry

/-- A field that reaches past its register, if it **has a last bit**. -/
def outOfBounds? (e : FieldEntry) : Option (List Violation) :=
  if e.register.width < e.field.bitEnd then return [e.pastRegister (← e.field.lastBit?)]
  else return []

/-- What ends behind the end of a register does not end at 0, **be the register without bits**. -/
theorem bitEnd_pos_of_outOfBounds {e : FieldEntry} (h : e.register.width < e.field.bitEnd) :
    0 < e.field.bitEnd := by
  rw [UInt32.lt_iff_toNat_lt] at h ⊢
  exact Nat.zero_lt_of_lt h

/-- **Any field** that reaches past its register can be reported. -/
theorem outOfBounds?_eq (e : FieldEntry) : e.outOfBounds? = some e.outOfBounds := by
  rw [outOfBounds?, outOfBounds]
  split
  · next h =>
    rw [BitField.lastBit?_eq_some_iff.mpr (bitEnd_pos_of_outOfBounds h)]
    rfl
  · rfl

end FieldEntry

namespace Model

/-- Everything that breaks a rule, if **every last bit that is reported is one**. -/
def violations? (m : Model) : Option (List Violation) := do
  return m.violationsWith (← m.registers.flatMapM (·.fieldOverlaps?))
    (← m.fields.flatMapM (·.outOfBounds?))

/-- Validating **any model** comes to no field without a last bit. -/
theorem violations?_eq (m : Model) : m.violations? = some m.violations := by
  have hoverlaps : m.registers.flatMapM (·.fieldOverlaps?) =
      some (m.registers.flatMap (·.fieldOverlaps)) := by
    rw [← idRun_flatMapM]
    exact flatMapM_eq_some fun e _ => e.fieldOverlaps?_eq
  have hbounds : m.fields.flatMapM (·.outOfBounds?) =
      some (m.fields.flatMap (·.outOfBounds)) := by
    rw [← idRun_flatMapM]
    exact flatMapM_eq_some fun e _ => e.outOfBounds?_eq
  rw [violations?, hoverlaps, hbounds]
  rfl

end Model

/-! ### Viewing -/

section Views

variable {bits? : BitField → Option String} {bits : BitField → Id String}

namespace RegisterEntry

variable {e : RegisterEntry} (h : ∀ f ∈ e.register.fields, bits? f = some (bits f).run)

include h

/-- A register whose fields can be shown has **its lines of the tree**. -/
theorem treeLines_eq_some : e.treeLines bits? = some (e.treeLines bits).run := by
  have hfields : ∀ entry ∈ e.fields, entry.treeLine bits? = some (entry.treeLine bits).run := by
    intro entry hentry
    obtain ⟨f, hf, rfl⟩ := List.mem_map.mp hentry
    rw [FieldEntry.treeLine, h f hf]
    rfl
  rw [treeLines, mapM_eq_some hfields]
  rfl

/-- A register whose fields can be shown has **its details**. -/
theorem detailsWith_eq_some : e.detailsWith bits? = some (e.detailsWith bits).run := by
  have hfields : ∀ f ∈ e.register.fields, fieldDetail bits? f = some (fieldDetail bits f).run := by
    intro f hf
    rw [fieldDetail, h f hf]
    rfl
  rw [detailsWith, mapM_eq_some hfields]
  rfl

end RegisterEntry

/-- A model whose fields can be shown has **its tree**. -/
theorem Model.treeWith_eq_some {m : Model}
    (h : ∀ map ∈ m.memoryMaps, ∀ b ∈ map.blocks, ∀ r ∈ b.registers, ∀ f ∈ r.fields,
      bits? f = some (bits f).run) : m.treeWith bits? = some (m.treeWith bits).run := by
  have hmaps : ∀ map ∈ m.memoryMaps, map.treeLines bits? = some (map.treeLines bits).run := by
    intro map hmap
    have hblocks : ∀ b ∈ map.blockEntries, b.treeLines bits? = some (b.treeLines bits).run := by
      intro entry hentry
      obtain ⟨b, hb, rfl⟩ := List.mem_map.mp hentry
      have hregisters : ∀ e ∈ BlockEntry.registers ⟨map, b⟩,
          e.treeLines bits? = some (e.treeLines bits).run := by
        intro e he
        obtain ⟨r, hr, rfl⟩ := List.mem_map.mp he
        exact RegisterEntry.treeLines_eq_some (h map hmap b hb r hr)
      rw [BlockEntry.treeLines, flatMapM_eq_some hregisters]
      rfl
    rw [MemoryMap.treeLines, flatMapM_eq_some hblocks]
    rfl
  rw [treeWith, flatMapM_eq_some hmaps]
  rfl

end Views

/-- The tree of a model, with last bits that **wrap** below 0. -/
def Model.tree (m : Model) : String := Id.run (m.treeWith fun f => pure f.bitsText)

/-- The details of a register, with last bits that **wrap** below 0. -/
def RegisterEntry.details (e : RegisterEntry) : String :=
  Id.run (e.detailsWith fun f => pure f.bitsText)

/-- A field of a well-formed register **can be shown**. -/
theorem Register.WellFormed.bitsText?_eq {r : Register} (h : r.WellFormed) {f : BitField}
    (hf : f ∈ r.fields) : f.bitsText? = some f.bitsText :=
  BitField.bitsText?_eq (BitField.bitEnd_pos_of_bitWidth (h.one_le_bitWidth f hf))

/-- The **details of a well-formed register** come to no field without a last bit. -/
theorem RegisterEntry.details?_eq {e : RegisterEntry} (h : e.register.WellFormed) :
    e.details? = some e.details :=
  detailsWith_eq_some fun _ hf => h.bitsText?_eq hf

namespace Model

variable {m : Model}

/-- The **tree of a model** with well-formed registers comes to no field without a last bit. -/
theorem tree?_eq (h : ∀ map ∈ m.memoryMaps, ∀ b ∈ map.blocks, ∀ r ∈ b.registers, r.WellFormed) :
    m.tree? = some m.tree :=
  treeWith_eq_some fun map hmap b hb r hr _ hf => (h map hmap b hb r hr).bitsText?_eq hf

/-- Whatever is asked for, inspecting such a model **does not overflow**. -/
theorem inspect_ne_overflow
    (h : ∀ map ∈ m.memoryMaps, ∀ b ∈ map.blocks, ∀ r ∈ b.registers, r.WellFormed)
    (register : Option String) : m.inspect register ≠ .error .overflow := by
  cases register with
  | none =>
      rw [inspect, tree?_eq h]
      nofun
  | some path =>
      cases hfound : m.findRegister? path with
      | none =>
          simp only [inspect, hfound]
          nofun
      | some e =>
          obtain ⟨hmap, hblock, hregister⟩ := mem_of_findRegister? hfound
          have hdetails := RegisterEntry.details?_eq (h e.map hmap e.block hblock _ hregister)
          simp only [inspect, hfound, hdetails]
          nofun

/-- **No last bit is below 0.** Validating any model, be there fields in it without bits, has a
result when its subtractions are checked, and the same. So has the tree of every model of a
document, and so have the details of its registers and of the templates of its arrays; inspecting
such a model never stops at a field without a last bit. -/
theorem lastBits_exact :
    (∀ m : Model, m.violations? = some m.violations) ∧
      ∀ (options : Options) (sections : List Yaml.Value) (m : Model),
        Model.ofSections options sections = .ok m →
          m.tree? = some m.tree ∧
            (∀ map ∈ m.memoryMaps, ∀ b ∈ map.blocks, ∀ e : RegisterEntry,
              e.register ∈ b.registers ∨ (∃ a ∈ b.arrays, e.register ∈ a.registers) →
                e.details? = some e.details) ∧
            ∀ register, m.inspect register ≠ .error .overflow := by
  refine ⟨violations?_eq, fun options sections m hm => ?_⟩
  obtain ⟨-, hblocks, -⟩ := Model.ofSections_wellFormed hm
  have hregisters : ∀ map ∈ m.memoryMaps, ∀ b ∈ map.blocks, ∀ r ∈ b.registers, r.WellFormed :=
    fun map hmap b hb => (hblocks map hmap b hb).registers
  refine ⟨tree?_eq hregisters, ?_, inspect_ne_overflow hregisters⟩
  intro map hmap b hb e he
  rcases he with hregister | ⟨a, ha, htemplate⟩
  · exact RegisterEntry.details?_eq (hregisters map hmap b hb _ hregister)
  · exact RegisterEntry.details?_eq ((hblocks map hmap b hb).templates a ha _ htemplate)

end Model

/-! ### A field without bits and a field at the last position -/

namespace EdgeFields

/-- A field without bits at position 0, which **ends at 0**. -/
def empty : BitField := { name := "none", bitOffset := 0, bitWidth := 0, access := .readWrite }

/-- A field without bits behind the end of its register. -/
def stray : BitField := { name := "stray", bitOffset := 40, bitWidth := 0, access := .readWrite }

/-- The block around a register. -/
def block (r : Register) : AddressBlock :=
  { name := "unit", baseOffset := 0, size := 64, registers := [r] }

/-- The map around a register. -/
def map (r : Register) : MemoryMap := { name := "soc", blocks := [block r] }

/-- The model around a register. -/
def model (r : Register) : Model := { memoryMaps := [map r] }

/-- A register, of no document, with both fields without bits. -/
def bare : Register :=
  { name := "ctrl", offset := 0, width := 32, access := .readWrite, fields := [empty, stray] }

/-- A document with a field at the **last position** that 32 bits can name. -/
def document : List Yaml.Value :=
  [.map [(.str "memoryMaps", .seq [.map
    [(.str "name", .str "soc"), (.str "addressBlocks", .seq [.map
      [(.str "name", .str "unit"), (.str "offset", .int 0), (.str "registers", .seq
        [.map [(.str "name", .str "ctrl"), (.str "fields", .seq
          [.map [(.str "name", .str "far"), (.str "bitOffset", .int 4294967295),
            (.str "bitWidth", .int 8)]])]])]])]])]]

/-- The field of the document. Its end is clamped. -/
def far : BitField :=
  { name := "far", bitOffset := 4294967295, bitWidth := 8, access := .readWrite }

/-- The register of the document. -/
def ctrl : Register :=
  { name := "ctrl", offset := 0, width := 32, access := .readWrite, fields := [far] }

/-- Of the fields without bits only the one behind its register has a last bit. Their model is
validated, and inspecting it stops. The field at the last position has a last bit, and its model and
its register are viewed. -/
theorem lastBits_exact_edges :
    empty.lastBit? = none ∧ stray.lastBit? = some 39 ∧
      (model bare).violations? = some (model bare).violations ∧
      (model bare).inspect none = .error .overflow ∧
      Model.ofSections {} document = .ok (model ctrl) ∧ far.lastBit? = some 4294967294 ∧
        (model ctrl).tree? = some (model ctrl).tree ∧
          RegisterEntry.details? ⟨⟨map ctrl, block ctrl⟩, ctrl⟩ =
            some (RegisterEntry.details ⟨⟨map ctrl, block ctrl⟩, ctrl⟩) := by
  have hmodel : Model.ofSections {} document = .ok (model ctrl) :=
    eq_ok_of_toOption (by decide +kernel)
  obtain ⟨hvalidated, hviewed⟩ := Model.lastBits_exact
  obtain ⟨htree, hdetails, -⟩ := hviewed {} document (model ctrl) hmodel
  refine ⟨by decide, by decide, hvalidated (model bare), rfl, hmodel, by decide, htree, ?_⟩
  exact hdetails (map ctrl) List.mem_cons_self (block ctrl) List.mem_cons_self
    ⟨⟨map ctrl, block ctrl⟩, ctrl⟩ (.inl List.mem_cons_self)

end EdgeFields

end RegisterMap
