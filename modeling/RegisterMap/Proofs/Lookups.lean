import RegisterMap.Proofs.Handles
import RegisterMap.Proofs.Paths

/-!
# What a Path Finds

A register is looked up by its path, or by a path that leaves out the map. Which of the two a text
is taken for depends on its points alone: the last one ends the path of the block, and the block is
looked up in a map if there is another point before that. So the name of a register has no points,
nor has the name of a map, and a block whose name has points is only found with its map. On each
level the first item of a name is taken, and without a map the first block of the name in all maps.

This describes every lookup, in models with repeated names too. Where names are not repeated, every
item is the first of its name, and the path of a register finds that register.

## Main results

* `find?_name_eq_some_iff` — what is found by name is the first of its name.
* `Model.findBlock?_eq_some_iff`, `Model.findRegister?_eq_some_iff` — what a path finds.
* `Model.findRegister?_exact` — paths lead back to the registers, and what is found has that path.
-/

namespace RegisterMap

/-- The item is the **first of its name** in a list. -/
def FirstNamed {α : Type} (name : α → String) (a : α) (items : List α) : Prop :=
  ∃ before after, items = before ++ a :: after ∧ ∀ b ∈ before, name b ≠ name a

/-- A search by name finds the **first item of that name**. -/
theorem find?_name_eq_some_iff {α : Type} {name : α → String} {items : List α} {s : String}
    {a : α} : items.find? (name · == s) = some a ↔ name a = s ∧ FirstNamed name a items := by
  rw [List.find?_eq_some_iff_append, beq_iff_eq]
  refine and_congr_right fun hname => ?_
  simp only [FirstNamed, hname, Bool.not_eq_true', beq_eq_false_iff_ne, ne_eq]

/-- A path of two names tells what they are, if the first one has no points. -/
theorem Text.path_inj {a b c d : String} (ha : '.' ∉ a.toList) (hc : '.' ∉ c.toList) :
    s!"{a}.{b}" = s!"{c}.{d}" ↔ a = c ∧ b = d := by
  constructor
  · intro h
    have hsplit := splitFirst_path ha b
    rw [h, splitFirst_path hc] at hsplit
    obtain ⟨rfl, rfl⟩ := Prod.mk.inj (Option.some.inj hsplit)
    exact ⟨rfl, rfl⟩
  · rintro ⟨rfl, rfl⟩
    rfl

namespace Model

variable {m : Model} {p : String}

/-! ### Blocks -/

/-- A path with a point finds the first block of its name **in the first map** of its name. -/
theorem findBlock?_of_splitFirst {a b : String} (hp : Text.splitFirst '.' p = some (a, b))
    {e : BlockEntry} : m.findBlock? p = some e ↔
      (e.map.name = a ∧ FirstNamed (·.name) e.map m.memoryMaps) ∧
        e.block.name = b ∧ FirstNamed (·.name) e.block e.map.blocks := by
  simp only [findBlock?, hp, memoryMap?, MemoryMap.block?, Option.bind_eq_bind,
    Option.bind_eq_some_iff, Option.pure_def, Option.some.injEq, find?_name_eq_some_iff]
  constructor
  · rintro ⟨map, hmap, block, hblock, rfl⟩
    exact ⟨hmap, hblock⟩
  · rintro ⟨hmap, hblock⟩
    exact ⟨e.map, hmap, e.block, hblock, rfl⟩

/-- A **block** is found by its map and its name, or by its name alone if that has no points. -/
theorem findBlock?_eq_some_iff {e : BlockEntry} :
    m.findBlock? p = some e ↔
      p = e.path ∧ '.' ∉ e.map.name.toList ∧ FirstNamed (·.name) e.map m.memoryMaps ∧
          FirstNamed (·.name) e.block e.map.blocks ∨
        p = e.block.name ∧ '.' ∉ e.block.name.toList ∧ FirstNamed (·.block.name) e m.blocks := by
  cases hsplit : Text.splitFirst '.' p with
  | some names =>
      obtain ⟨a, b⟩ := names
      rw [findBlock?_of_splitFirst hsplit]
      obtain ⟨rfl, ha⟩ := Text.splitFirst_eq_some_iff.mp hsplit
      have hpoint : '.' ∈ s!"{a}.{b}".toList := by
        rw [Text.toList_path]
        exact List.mem_append_right _ List.mem_cons_self
      constructor
      · rintro ⟨⟨rfl, hmap⟩, rfl, hblock⟩
        exact .inl ⟨rfl, ha, hmap, hblock⟩
      · rintro (⟨hp, hmapName, hmap, hblock⟩ | ⟨hp, hname, -⟩)
        · obtain ⟨rfl, rfl⟩ := (Text.path_inj ha hmapName).mp hp
          exact ⟨⟨rfl, hmap⟩, rfl, hblock⟩
        · exact absurd (hp ▸ hpoint) hname
  | none =>
      have hpoint := Text.splitFirst_eq_none_iff.mp hsplit
      rw [findBlock?, hsplit]
      dsimp only
      rw [find?_name_eq_some_iff]
      constructor
      · rintro ⟨rfl, hfirst⟩
        exact .inr ⟨rfl, hpoint, hfirst⟩
      · rintro (⟨rfl, -⟩ | ⟨rfl, -, hfirst⟩)
        · rw [BlockEntry.path, Text.toList_path] at hpoint
          exact absurd (List.mem_append_right _ List.mem_cons_self) hpoint
        · exact ⟨rfl, hfirst⟩

/-! ### Registers -/

/-- A **register** is found by the path of its block and its name, or by the name of its block and
its own. -/
theorem findRegister?_eq_some_iff {e : RegisterEntry} :
    m.findRegister? p = some e ↔
      ('.' ∉ e.register.name.toList ∧ FirstNamed (·.name) e.register e.block.registers) ∧
        (p = e.path ∧ '.' ∉ e.map.name.toList ∧ FirstNamed (·.name) e.map m.memoryMaps ∧
            FirstNamed (·.name) e.block e.map.blocks ∨
          p = s!"{e.block.name}.{e.register.name}" ∧ '.' ∉ e.block.name.toList ∧
            FirstNamed (·.block.name) e.toBlockEntry m.blocks) := by
  have hfound : m.findRegister? p = some e ↔ ∃ q, Text.splitLast '.' p = some (q, e.register.name) ∧
      m.findBlock? q = some e.toBlockEntry ∧
        FirstNamed (·.name) e.register e.block.registers := by
    simp only [findRegister?, AddressBlock.register?, Option.bind_eq_bind, Option.bind_eq_some_iff,
      Option.pure_def, Option.some.injEq, find?_name_eq_some_iff, Prod.exists]
    constructor
    · rintro ⟨q, name, hsplit, entry, hentry, register, ⟨rfl, hregister⟩, rfl⟩
      exact ⟨q, hsplit, hentry, hregister⟩
    · rintro ⟨q, hsplit, hentry, hregister⟩
      exact ⟨q, _, hsplit, _, hentry, _, ⟨rfl, hregister⟩, rfl⟩
  simp only [hfound, Text.splitLast_eq_some_iff, findBlock?_eq_some_iff]
  constructor
  · rintro ⟨q, ⟨rfl, hpoint⟩, hblock, hregister⟩
    refine ⟨⟨hpoint, hregister⟩, ?_⟩
    rcases hblock with ⟨rfl, hblock⟩ | ⟨rfl, hblock⟩
    · exact .inl ⟨rfl, hblock⟩
    · exact .inr ⟨rfl, hblock⟩
  · rintro ⟨⟨hpoint, hregister⟩, ⟨rfl, hblock⟩ | ⟨rfl, hblock⟩⟩
    · exact ⟨_, ⟨rfl, hpoint⟩, .inl ⟨rfl, hblock⟩, hregister⟩
    · exact ⟨_, ⟨rfl, hpoint⟩, .inr ⟨rfl, hblock⟩, hregister⟩

/-- **Lookups by path.** In a model without repeated names whose maps and registers have no points
in their names, the path of every register finds that register, in its block and map. In every
model, what a path finds is a register of the model that is the first of its name in its block, and
the path either is that of the register, or it is made of the names of the block and the register,
and then the block is the first of its name in all maps. -/
theorem findRegister?_exact (m : Model) :
    ((∀ v ∈ m.violations, v.kind ≠ .duplicateName) →
      (∀ map ∈ m.memoryMaps, '.' ∉ map.name.toList) →
      (∀ e ∈ m.registers, '.' ∉ e.register.name.toList) →
      ∀ e ∈ m.registers, m.findRegister? e.path = some e) ∧
    ∀ (p : String) (e : RegisterEntry), m.findRegister? p = some e →
      e ∈ m.registers ∧ FirstNamed (·.name) e.register e.block.registers ∧
        (p = e.path ∧ FirstNamed (·.name) e.map m.memoryMaps ∧
            FirstNamed (·.name) e.block e.map.blocks ∨
          p = s!"{e.block.name}.{e.register.name}" ∧
            FirstNamed (·.block.name) e.toBlockEntry m.blocks) := by
  constructor
  · intro hviolations hmaps hregisters e he
    obtain ⟨hmap, hblock, hregister⟩ := mem_registers_iff.mp he
    exact (Named.of_violations hviolations).findRegister?_path hmap hblock hregister
      (hmaps _ hmap) (hregisters e he)
  · intro p e he
    obtain ⟨⟨-, hregister⟩, hpath⟩ := findRegister?_eq_some_iff.mp he
    refine ⟨mem_registers_iff.mpr (mem_of_findRegister? he), hregister, ?_⟩
    rcases hpath with ⟨hp, -, hfirst⟩ | ⟨hp, -, hfirst⟩
    · exact .inl ⟨hp, hfirst⟩
    · exact .inr ⟨hp, hfirst⟩

end Model

/-! ### Blocks of one name in two maps -/

namespace TwoUnits

/-- The register that all blocks have. -/
def control : Register := { name := "control", offset := 0, width := 32, access := .readWrite }

/-- A block whose name has a point. -/
def bank : AddressBlock :=
  { name := "io.bank", baseOffset := 0, size := 64, registers := [control] }

/-- A block of both maps. -/
def unit : AddressBlock := { name := "unit", baseOffset := 64, size := 64, registers := [control] }

def soc : MemoryMap := { name := "soc", blocks := [bank, unit] }

def dsp : MemoryMap := { name := "dsp", blocks := [unit] }

def model : Model := { memoryMaps := [soc, dsp] }

/-- The model is sound. -/
theorem sound : model.Sound := by
  have hcontrol : control.Sound := Register.sound_of_no_fields rfl rfl
  have hbank : bank.Sound := AddressBlock.sound_of_register rfl rfl hcontrol
  have hunit : unit.Sound := AddressBlock.sound_of_register rfl rfl hcontrol
  refine ⟨fun kind => by cases kind <;> decide, by decide, ?_⟩
  refine List.forall_mem_cons.mpr ⟨⟨List.pairwise_pair.mpr ?_, by decide, ?_⟩, ?_⟩
  · simp [bank, unit, AddressBlock.bytes, AddressBlock.endOffset, satAdd_toNat, UInt64.size]
  · exact List.forall_mem_cons.mpr ⟨hbank, List.forall_mem_singleton.mpr hunit⟩
  · exact List.forall_mem_singleton.mpr (MemoryMap.sound_of_block rfl hunit)

/-- The register is found in the block with a point in its name and in the second map; without a
map, it is found in the first block of the name. -/
theorem findRegister?_exact_units :
    model.findRegister? "soc.io.bank.control" = some ⟨⟨soc, bank⟩, control⟩ ∧
      model.findRegister? "dsp.unit.control" = some ⟨⟨dsp, unit⟩, control⟩ ∧
      model.findRegister? "unit.control" = some ⟨⟨soc, unit⟩, control⟩ ∧
      FirstNamed (·.block.name) ⟨soc, unit⟩ model.blocks := by
  obtain ⟨hback, hfound⟩ := Model.findRegister?_exact model
  have hpath := hback (sound.kind_ne rfl) (by decide) (by decide)
  have hshort : model.findRegister? "unit.control" = some ⟨⟨soc, unit⟩, control⟩ := by decide
  refine ⟨hpath ⟨⟨soc, bank⟩, control⟩ (by decide), hpath ⟨⟨dsp, unit⟩, control⟩ (by decide),
    hshort, ?_⟩
  rcases (hfound _ _ hshort).2.2 with ⟨hp, -⟩ | ⟨-, hfirst⟩
  · exact absurd hp (by decide)
  · exact hfirst

end TwoUnits

end RegisterMap
