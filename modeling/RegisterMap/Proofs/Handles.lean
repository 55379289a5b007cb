import RegisterMap.Engine.Handle

/-!
# What Handles Stand For

A handle is found by a path, or it is computed from the template of an array. In a resolved model
both kinds stand for registers that the blocks of the model list, so whatever a check says about all
registers of the model is known of every handle.

## Main results

* `Model.mem_blocks_iff`, `Model.mem_registers_iff` — what the walks over the model meet.
* `Model.mem_of_findBlock?`, `Model.mem_of_findRegister?`, `Model.mem_of_findArray?` — what is found
  by path is in the model.
* `Model.exists_block_of_handle` — the register of a handle is listed by a block, and the handle has
  its address.
-/

namespace RegisterMap

/-- Numbers below the count of an array are instance numbers as they are. -/
theorem ArrayDescriptor.toNat_ofNat_of_lt_count {d : ArrayDescriptor} {n : Nat}
    (hn : n < d.count.toNat) : (UInt64.ofNat n).toNat = n :=
  UInt64.toNat_ofNat_of_lt' (Nat.lt_trans hn d.count.toNat_lt)

/-- The instance numbers are those **below the count**. -/
theorem ArrayDescriptor.mem_instances_iff {d : ArrayDescriptor} {i : UInt64} :
    i ∈ d.instances ↔ d.contains i = true := by
  simp only [instances, contains, List.mem_map, List.mem_range, decide_eq_true_eq,
    UInt64.lt_iff_toNat_lt]
  constructor
  · rintro ⟨n, hn, rfl⟩
    rwa [toNat_ofNat_of_lt_count hn]
  · exact fun hi => ⟨i.toNat, hi, UInt64.ofNat_toNat⟩

/-- An array expands to its templates, **made into registers** of all its instances. -/
theorem RegisterArray.mem_expand_iff {a : RegisterArray} {r : Register} :
    r ∈ a.expand ↔
      ∃ i, a.descriptor.contains i = true ∧ ∃ t ∈ a.registers, a.materialize i t = r := by
  simp only [expand, List.mem_flatMap, ArrayDescriptor.mem_instances_iff]
  refine exists_congr fun i => and_congr_right fun hi => ?_
  rw [instance?, if_pos hi, Option.getD_some, List.mem_map]

/-- An instance of an array has registers among those that the array expands to. -/
theorem RegisterArray.mem_expand_of_instanceRegister? {a : RegisterArray} {i : UInt64}
    {name : String} {r : Register} (h : a.instanceRegister? i name = some r) : r ∈ a.expand := by
  unfold instanceRegister? at h
  split at h
  · next hi =>
    obtain ⟨t, ht, rfl⟩ := Option.map_eq_some_iff.mp h
    exact mem_expand_iff.mpr ⟨i, hi, t, List.mem_of_find?_eq_some ht, rfl⟩
  · nomatch h

namespace Model

variable {m : Model}

/-- The walk over the blocks meets those that a **map of the model** lists. -/
theorem mem_blocks_iff {e : BlockEntry} :
    e ∈ m.blocks ↔ e.map ∈ m.memoryMaps ∧ e.block ∈ e.map.blocks := by
  simp only [blocks, MemoryMap.blockEntries, List.mem_flatMap, List.mem_map]
  constructor
  · rintro ⟨map, hmap, block, hblock, rfl⟩
    exact ⟨hmap, hblock⟩
  · rintro ⟨hmap, hblock⟩
    exact ⟨e.map, hmap, e.block, hblock, rfl⟩

/-- The walk over the registers meets those that a **block of the model** lists. -/
theorem mem_registers_iff {e : RegisterEntry} :
    e ∈ m.registers ↔
      e.map ∈ m.memoryMaps ∧ e.block ∈ e.map.blocks ∧ e.register ∈ e.block.registers := by
  simp only [registers, BlockEntry.registers, List.mem_flatMap, List.mem_map, mem_blocks_iff,
    ← and_assoc]
  constructor
  · rintro ⟨entry, hentry, register, hregister, rfl⟩
    exact ⟨hentry, hregister⟩
  · rintro ⟨hentry, hregister⟩
    exact ⟨e.toBlockEntry, hentry, e.register, hregister, rfl⟩

/-- A block that is found is a **block of the model**. -/
theorem mem_of_findBlock? {path : String} {e : BlockEntry} (h : m.findBlock? path = some e) :
    e.map ∈ m.memoryMaps ∧ e.block ∈ e.map.blocks := by
  unfold findBlock? at h
  split at h
  · simp only [Option.bind_eq_bind, Option.bind_eq_some_iff, Option.pure_def,
      Option.some.injEq] at h
    obtain ⟨map, hmap, block, hblock, rfl⟩ := h
    exact ⟨List.mem_of_find?_eq_some hmap, List.mem_of_find?_eq_some hblock⟩
  · exact mem_blocks_iff.mp (List.mem_of_find?_eq_some h)

/-- A register that is found is a **register of the model**. -/
theorem mem_of_findRegister? {path : String} {e : RegisterEntry}
    (h : m.findRegister? path = some e) :
    e.map ∈ m.memoryMaps ∧ e.block ∈ e.map.blocks ∧ e.register ∈ e.block.registers := by
  simp only [findRegister?, Option.bind_eq_bind, Option.bind_eq_some_iff, Option.pure_def,
    Option.some.injEq] at h
  obtain ⟨⟨blockPath, name⟩, -, entry, hentry, register, hregister, rfl⟩ := h
  obtain ⟨hmap, hblock⟩ := mem_of_findBlock? hentry
  exact ⟨hmap, hblock, List.mem_of_find?_eq_some hregister⟩

/-- An array that is found is an array of a block of the model. -/
theorem mem_of_findArray? {path : String} {e : BlockEntry} {a : RegisterArray}
    (h : m.findArray? path = some (e, a)) :
    e.map ∈ m.memoryMaps ∧ e.block ∈ e.map.blocks ∧ a ∈ e.block.arrays := by
  simp only [findArray?, Option.bind_eq_bind, Option.bind_eq_some_iff, Option.pure_def,
    Option.some.injEq, Prod.mk.injEq] at h
  obtain ⟨⟨blockPath, name⟩, -, entry, hentry, array, harray, rfl, rfl⟩ := h
  obtain ⟨hmap, hblock⟩ := mem_of_findBlock? hentry
  exact ⟨hmap, hblock, List.mem_of_find?_eq_some harray⟩

/-- The register of a handle is **listed by a block**, and the handle has its address there,
provided that blocks list the instances of their arrays. -/
theorem exists_block_of_handle
    (hexpanded : ∀ map ∈ m.memoryMaps, ∀ b ∈ map.blocks, ∀ a ∈ b.arrays, ∀ r ∈ a.expand,
      r ∈ b.registers) {target : Target} {h : RegisterHandle} (hh : m.handle target = .ok h) :
    ∃ map ∈ m.memoryMaps, ∃ b ∈ map.blocks, h.register ∈ b.registers ∧
      h.address = satAdd b.baseOffset h.register.offset := by
  cases target with
  | path path =>
      simp only [handle, registerHandle] at hh
      split at hh
      · next e he =>
        obtain rfl := Except.ok.inj hh
        obtain ⟨hmap, hblock, hregister⟩ := mem_of_findRegister? he
        exact ⟨_, hmap, _, hblock, hregister, rfl⟩
      · nomatch hh
  | ofInstance array number name =>
      simp only [handle, instanceHandle] at hh
      split at hh
      · nomatch hh
      · next e a ha =>
        obtain ⟨hmap, hblock, harray⟩ := mem_of_findArray? ha
        split at hh
        · simp only [bind, Except.bind, InstanceHandle.register] at hh
          split at hh
          · next register hregister =>
            obtain rfl := Except.ok.inj hh
            exact ⟨_, hmap, _, hblock, hexpanded _ hmap _ hblock a harray _
              (RegisterArray.mem_expand_of_instanceRegister? hregister), rfl⟩
          · nomatch hh
        · nomatch hh

end Model

end RegisterMap
