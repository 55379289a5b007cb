import RegisterMap.Proofs.Handles
import RegisterMap.Proofs.Origins
import RegisterMap.Proofs.Paths

/-!
# Two Ways to a Register of an Array

A register of an array is listed by its block, where its path leads to it, and it is computed from
the array's template when an instance is asked for it. Resolving lists the instances of the arrays
of a block in their order, each once, so both ways lead to the same handle.

They do not lead to the same registers. The validator compares the names of registers, not those of
arrays, and the indexed way takes the first array of a name; the registers of a later one can only
be reached by their paths.

## Main results

* `Model.ofSections_expanded` — blocks list the instances of all their arrays, each array apart.
* `Model.registerHandle_of_instance` — what an instance computes is what its path looks up.
* `Model.reached_by_index_iff` — which registers are reached by index.
-/

namespace RegisterMap

/-! ### Expansion -/

/-- The registers list the **instances of all arrays**, array by array. -/
theorem resolveEntries_expanded (templates : List DraftTemplate) (cursor : Address)
    (entries : List DraftEntry) :
    Ensures (resolveEntries templates cursor entries) fun p =>
      (p.2.flatMap (·.expand)).Sublist p.1 := by
  induction entries generalizing cursor with
  | nil => exact .ok (List.Sublist.refl [])
  | cons e entries ih =>
      cases e with
      | register r => exact .after fun register => (ih _).bind fun p hp => .ok (hp.cons register)
      | reserved path bytes => exact ih _
      | array a =>
          refine .after fun array => (ih _).bind fun p hp => .ok ?_
          rw [List.flatMap_cons]
          exact (List.Sublist.refl array.expand).append hp

/-- Blocks of a resolved model list the instances of all their arrays. -/
theorem Model.ofSections_expanded (options : Options) (sections : List Yaml.Value) :
    Ensures (Model.ofSections options sections) fun m => ∀ map ∈ m.memoryMaps,
      ∀ b ∈ map.blocks, (b.arrays.flatMap (·.expand)).Sublist b.registers := by
  refine .after fun d => (d.resolve_blocks options).imp fun m hm map hmap b hb => ?_
  obtain ⟨dm, -, db, -, hresolve⟩ := hm map hmap b hb
  have hblock : Ensures (db.resolve options d.templates) fun b =>
      (b.arrays.flatMap (·.expand)).Sublist b.registers :=
    (resolveEntries_expanded d.templates 0 db.entries).bind fun _ hp => .ok hp
  exact hblock b hresolve

/-! ### Handles by index -/

/-- An instance of an array, with the block that has the array. -/
def BlockEntry.instanceOf (e : BlockEntry) (array : RegisterArray) (number : UInt64) :
    InstanceHandle :=
  { blockPath := e.path, blockBase := e.block.baseOffset, array, number }

namespace InstanceHandle

variable {e : BlockEntry} {a : RegisterArray} {i : UInt64} {name : String} {h : RegisterHandle}

/-- The handles of an instance, by the template register that each is made from. -/
theorem register_eq_ok_iff : (e.instanceOf a i).register name = .ok h ↔
    a.descriptor.contains i = true ∧ ∃ t, a.registers.find? (·.name == name) = some t ∧
      RegisterEntry.handle { e with register := a.materialize i t } = h := by
  rw [register, BlockEntry.instanceOf, RegisterArray.instanceRegister?]
  by_cases hi : a.descriptor.contains i = true
  · cases a.registers.find? (·.name == name) with
    | none => simp [hi]
    | some t => simp [hi, handleOf, RegisterEntry.handle, RegisterEntry.path, RegisterEntry.address]
  · simp [hi]

/-- All handles of an instance are those of registers that the array expands to. -/
theorem exists_mem_expand (hh : h ∈ (e.instanceOf a i).registers) :
    ∃ r ∈ a.expand, RegisterEntry.handle { e with register := r } = h := by
  simp only [registers, BlockEntry.instanceOf, RegisterArray.instance?] at hh
  by_cases hi : a.descriptor.contains i = true
  · simp only [hi, if_true, Option.getD_some, List.map_map, List.mem_map] at hh
    obtain ⟨t, ht, rfl⟩ := hh
    exact ⟨_, RegisterArray.mem_expand_iff.mpr ⟨i, hi, t, ht, rfl⟩, rfl⟩
  · simp [hi] at hh

end InstanceHandle

namespace Model

variable {m : Model}

/-- An instance that is found is one of an array of a block of the model. -/
theorem instanceHandle_eq_ok_iff {path : String} {i : UInt64} {instance_ : InstanceHandle} :
    m.instanceHandle path i = .ok instance_ ↔ ∃ e a, m.findArray? path = some (e, a) ∧
      a.descriptor.contains i = true ∧ e.instanceOf a i = instance_ := by
  rw [instanceHandle]
  cases m.findArray? path with
  | none => simp
  | some p =>
      obtain ⟨e, a⟩ := p
      by_cases hi : a.descriptor.contains i = true
      · simp [hi, BlockEntry.instanceOf]
      · simp [hi]

/-- **Computed and listed registers are the same.** In a resolved model without repeated names, and
without points in the names of maps and registers, the handles of an array instance are the ones
that their paths lead to. -/
theorem registerHandle_of_instance {options : Options} {sections : List Yaml.Value}
    (hresolved : Model.ofSections options sections = .ok m)
    (hviolations : ∀ v ∈ m.violations, v.kind ≠ .duplicateName)
    (hmaps : ∀ map ∈ m.memoryMaps, '.' ∉ map.name.toList)
    (hregisters : ∀ e ∈ m.registers, '.' ∉ e.register.name.toList)
    {path : String} {i : UInt64} {found : InstanceHandle}
    (hfound : m.instanceHandle path i = .ok found) :
    (∀ name h, found.register name = .ok h → m.registerHandle h.path = .ok h) ∧
      ∀ h ∈ found.registers, m.registerHandle h.path = .ok h := by
  obtain ⟨e, a, harray, -, rfl⟩ := instanceHandle_eq_ok_iff.mp hfound
  obtain ⟨hmap, hblock, harray⟩ := mem_of_findArray? harray
  have hexpanded := Model.ofSections_expanded options sections m hresolved e.map hmap e.block hblock
  have hnamed : m.Named := .of_violations hviolations
  -- The register is listed by the block, and its path leads back to it.
  have hback (r : Register) (hr : r ∈ a.expand) :
      m.registerHandle (RegisterEntry.handle { e with register := r }).path =
        .ok (RegisterEntry.handle { e with register := r }) := by
    have hlisted : r ∈ e.block.registers :=
      hexpanded.subset (List.mem_flatMap.mpr ⟨a, harray, hr⟩)
    have hlistedBlock : e ∈ m.blocks :=
      List.mem_flatMap.mpr ⟨e.map, hmap, List.mem_map.mpr ⟨_, hblock, rfl⟩⟩
    have hentry : ({ e with register := r } : RegisterEntry) ∈ m.registers :=
      List.mem_flatMap.mpr ⟨e, hlistedBlock, List.mem_map.mpr ⟨r, hlisted, rfl⟩⟩
    have hpath := hnamed.findRegister?_path (e := { e with register := r }) hmap hblock hlisted
      (hmaps _ hmap) (hregisters _ hentry)
    simp only [registerHandle, RegisterEntry.handle, hpath]
  constructor
  · intro name h hh
    obtain ⟨hi, t, ht, rfl⟩ := InstanceHandle.register_eq_ok_iff.mp hh
    exact hback _ (RegisterArray.mem_expand_iff.mpr ⟨i, hi, t, List.mem_of_find?_eq_some ht, rfl⟩)
  · intro h hh
    obtain ⟨r, hr, rfl⟩ := InstanceHandle.exists_mem_expand hh
    exact hback r hr

end Model

/-! ### Two arrays of one name -/

namespace TwoArrays

/-- A document with two arrays of one name in one block; their registers have different names. -/
def document : List Yaml.Value :=
  [.map [(.str "memoryMaps", .seq [.map
    [(.str "name", .str "soc"), (.str "addressBlocks", .seq [.map
      [(.str "name", .str "unit"), (.str "offset", .int 0), (.str "registers", .seq
        [.map [(.str "name", .str "ch"), (.str "count", .int 1), (.str "naming", .str "a"),
           (.str "registers", .seq [.map [(.str "name", .str "ctrl")]])],
         .map [(.str "name", .str "ch"), (.str "count", .int 2), (.str "naming", .str "b"),
           (.str "registers", .seq [.map [(.str "name", .str "ctrl")]])]])]])]])]]

/-- The template register of both arrays. -/
def ctrl : Register := { name := "ctrl", offset := 0, width := 32, access := .readWrite }

/-- The array of one instance. -/
def first : RegisterArray :=
  { name := "ch", offset := 0, descriptor := { count := 1, stride := 4, naming := some "a" },
    registers := [ctrl] }

/-- The array of two instances behind it. -/
def second : RegisterArray :=
  { name := "ch", offset := 4, descriptor := { count := 2, stride := 4, naming := some "b" },
    registers := [ctrl] }

/-- The block of both arrays. -/
def block : AddressBlock :=
  { name := "unit", baseOffset := 0, size := 64, registers := first.expand ++ second.expand,
    arrays := [first, second] }

/-- The map of that block. -/
def map : MemoryMap := { name := "soc", blocks := [block] }

/-- The model of the document. -/
def model : Model := { memoryMaps := [map] }

/-- The document resolves to both arrays. -/
theorem resolved : Model.ofSections {} document = .ok model :=
  eq_ok_of_toOption (by decide +kernel)

/-- The model is sound: **no rule is about the names of arrays**. -/
theorem sound : model.Sound := by
  have hregisters : block.registers =
      [first.materialize 0 ctrl, second.materialize 0 ctrl, second.materialize 1 ctrl] := by
    decide +kernel
  refine ⟨fun kind => by cases kind <;> decide, by decide, ?_⟩
  refine List.forall_mem_singleton.mpr (MemoryMap.sound_of_block rfl ?_)
  refine ⟨?_, by decide +kernel, by decide, ?_⟩
  · have hbytes₀ : (first.materialize 0 ctrl).bytes = Set.Ico 0 4 := rfl
    have hbytes₁ : (second.materialize 0 ctrl).bytes = Set.Ico 4 8 := rfl
    have hbytes₂ : (second.materialize 1 ctrl).bytes = Set.Ico 8 12 := rfl
    rw [hregisters]
    simp [hbytes₀, hbytes₁, hbytes₂]
  · have hsound (a : RegisterArray) (i : UInt64) : (a.materialize i ctrl).Sound :=
      Register.sound_of_no_fields rfl rfl
    rw [hregisters]
    simp [hsound]

/-- The handle of the first array's register. -/
def a0 : RegisterHandle := RegisterEntry.handle { map, block, register := first.materialize 0 ctrl }

/-- The first array's register is computed, and looked up by its path. -/
theorem registerHandle_of_instance_first :
    (BlockEntry.instanceOf ⟨map, block⟩ first 0).register "ctrl" = .ok a0 ∧
      a0.path = "soc.unit.a0_ctrl" ∧ model.registerHandle "soc.unit.a0_ctrl" = .ok a0 := by
  have hfound : model.instanceHandle "unit.ch" 0 =
      .ok (BlockEntry.instanceOf ⟨map, block⟩ first 0) := by
    decide +kernel
  have hregister : (BlockEntry.instanceOf ⟨map, block⟩ first 0).register "ctrl" = .ok a0 := by
    decide +kernel
  refine ⟨hregister, by decide +kernel, ?_⟩
  have hagrees := Model.registerHandle_of_instance resolved (sound.kind_ne rfl) (by decide)
    (by decide +kernel) hfound
  exact hagrees.1 "ctrl" a0 hregister

end TwoArrays

/-! ### Which registers are reached -/

namespace Model

variable {m : Model}

/-- What is reached by the index of an instance and the name of a template register. -/
theorem Named.handle_ofInstance_iff (hnamed : m.Named) {e : BlockEntry}
    (hmap : e.map ∈ m.memoryMaps) (hblock : e.block ∈ e.map.blocks)
    (hpoint : '.' ∉ e.map.name.toList) {array : String} (hlast : '.' ∉ array.toList) {i : UInt64}
    {name : String} {h : RegisterHandle} :
    m.handle (.ofInstance s!"{e.path}.{array}" i name) = .ok h ↔
      ∃ a, e.block.array? array = some a ∧ a.descriptor.contains i = true ∧
        ∃ t, a.registers.find? (·.name == name) = some t ∧
          RegisterEntry.handle { e with register := a.materialize i t } = h := by
  rw [handle]
  constructor
  · intro hh
    cases hfound : m.instanceHandle s!"{e.path}.{array}" i with
    | error error =>
        rw [hfound] at hh
        cases hh
    | ok found =>
        rw [hfound] at hh
        obtain ⟨e', a, harray, -, rfl⟩ := instanceHandle_eq_ok_iff.mp hfound
        rw [hnamed.findArray?_path hmap hblock hpoint hlast, Option.map_eq_some_iff] at harray
        obtain ⟨a, harray, ⟨⟩⟩ := harray
        exact ⟨a, harray, InstanceHandle.register_eq_ok_iff.mp hh⟩
  · rintro ⟨a, harray, hregister⟩
    have hpath := hnamed.findArray?_path hmap hblock hpoint hlast
    rw [harray, Option.map_some] at hpath
    rw [instanceHandle_eq_ok_iff.mpr ⟨e, a, hpath, hregister.1, rfl⟩]
    exact InstanceHandle.register_eq_ok_iff.mpr hregister

end Model

/-- Instances of arrays at different positions have no register in common, where the registers of a
block differ. -/
theorem AddressBlock.not_mem_expand {b : AddressBlock}
    (hexpanded : (b.arrays.flatMap (·.expand)).Sublist b.registers) (hb : b.registers.Nodup)
    {j k : ℕ} {a a' : RegisterArray} (hj : b.arrays[j]? = some a') (hk : b.arrays[k]? = some a)
    (hlt : j < k) {r : Register} (hr : r ∈ a.expand) : r ∉ a'.expand := by
  obtain ⟨-, hapart⟩ := List.nodup_flatMap.mp (hexpanded.nodup hb)
  obtain ⟨hj', rfl⟩ := List.getElem?_eq_some_iff.mp hj
  obtain ⟨hk', rfl⟩ := List.getElem?_eq_some_iff.mp hk
  exact fun hr' => List.pairwise_iff_getElem.mp hapart j k hj' hk' hlt hr' hr

/-- An array is found by its name if no array **before it** has that name. -/
theorem AddressBlock.array?_eq_of_first {b : AddressBlock} {k : ℕ} {a : RegisterArray}
    (ha : b.arrays[k]? = some a) (hfirst : a.name ∉ (b.arrays.take k).map (·.name)) :
    b.array? a.name = some a := by
  obtain ⟨hk, rfl⟩ := List.getElem?_eq_some_iff.mp ha
  refine List.find?_eq_some_iff_getElem.mpr ⟨by simp, k, hk, rfl, fun j hj => ?_⟩
  have hbefore : b.arrays[j] ∈ b.arrays.take k := List.mem_take_iff_getElem.mpr ⟨j, by omega, rfl⟩
  have hne : b.arrays[j].name ≠ b.arrays[k].name :=
    fun heq => hfirst (List.mem_map.mpr ⟨_, hbefore, heq⟩)
  simpa using hne

/-- The array that is found by the name of an array before position `k` is itself before it. -/
theorem AddressBlock.exists_of_array? {b : AddressBlock} {k : ℕ} {name : String}
    {a : RegisterArray} (hname : name ∈ (b.arrays.take k).map (·.name))
    (ha : b.array? name = some a) : ∃ j < k, b.arrays[j]? = some a := by
  obtain ⟨-, j, hj, rfl, hbefore⟩ := List.find?_eq_some_iff_getElem.mp ha
  refine ⟨j, ?_, List.getElem?_eq_getElem hj⟩
  by_contra hle
  obtain ⟨a', ha', rfl⟩ := List.mem_map.mp hname
  obtain ⟨n, hn, rfl⟩ := List.mem_take_iff_getElem.mp ha'
  simpa using hbefore n (by omega)

namespace Model

variable {m : Model}

/-- **Reach by index.** In a valid resolved model, the register that an array makes of a template
register in instance `i` is listed by the block. Asking by index leads to exactly that register if
and only if no array before this one has its name. -/
theorem reached_by_index_iff {options : Options} {sections : List Yaml.Value}
    (hresolved : Model.ofSections options sections = .ok m) (hvalid : m.isValid = true)
    {e : BlockEntry} (hmap : e.map ∈ m.memoryMaps) (hblock : e.block ∈ e.map.blocks)
    (hpoint : '.' ∉ e.map.name.toList) {k : ℕ} {a : RegisterArray}
    (ha : e.block.arrays[k]? = some a) (hlast : '.' ∉ a.name.toList) {i : UInt64}
    (hi : a.descriptor.contains i = true) {t : Register} (ht : t ∈ a.registers) :
    a.materialize i t ∈ e.block.registers ∧
      (m.handle (.ofInstance s!"{e.path}.{a.name}" i t.name) =
          .ok (RegisterEntry.handle { e with register := a.materialize i t }) ↔
        a.name ∉ (e.block.arrays.take k).map (·.name)) := by
  have hnamed : m.Named := (m.isValid_iff_sound.mp hvalid).named
  have hexpanded := Model.ofSections_expanded options sections m hresolved e.map hmap e.block hblock
  have hregisters := hnamed.registers_named _ hmap _ hblock
  have hlisted (t : Register) (ht : t ∈ a.registers) : a.materialize i t ∈ e.block.registers :=
    hexpanded.subset (List.mem_flatMap.mpr ⟨a, List.mem_of_getElem? ha,
      RegisterArray.mem_expand_iff.mpr ⟨i, hi, t, ht, rfl⟩⟩)
  refine ⟨hlisted t ht, ?_⟩
  rw [hnamed.handle_ofInstance_iff hmap hblock hpoint hlast]
  constructor
  · rintro ⟨a', harray, hi', t', ht', heq⟩ hname
    -- The array that was found is another one, and it would have the same register.
    obtain ⟨j, hj, ha'⟩ := AddressBlock.exists_of_array? hname harray
    have hsame : a'.materialize i t' = a.materialize i t := congrArg RegisterHandle.register heq
    refine AddressBlock.not_mem_expand hexpanded hregisters.of_map ha' ha hj
      (RegisterArray.mem_expand_iff.mpr ⟨i, hi, t, ht, rfl⟩) ?_
    exact RegisterArray.mem_expand_iff.mpr ⟨i, hi', t', List.mem_of_find?_eq_some ht', hsame⟩
  · intro hfirst
    refine ⟨a, AddressBlock.array?_eq_of_first ha hfirst, hi, ?_⟩
    cases hfind : a.registers.find? (·.name == t.name) with
    | none => simpa using List.find?_eq_none.mp hfind t ht
    | some t' =>
        -- The first template register of that name makes the same register.
        have hname : t'.name = t.name := by simpa using List.find?_some hfind
        have hsame : a.materialize i t' = a.materialize i t := by
          refine List.inj_on_of_nodup_map hregisters
            (hlisted t' (List.mem_of_find?_eq_some hfind)) (hlisted t ht) ?_
          simp only [RegisterArray.materialize, hname]
        exact ⟨t', rfl, by rw [hsame]⟩

end Model

namespace TwoArrays

/-- The register of the first array is reached by its index. -/
theorem reached_by_index_iff_first :
    first.materialize 0 ctrl ∈ block.registers ∧
      model.handle (.ofInstance "soc.unit.ch" 0 "ctrl") = .ok a0 := by
  have hreached := Model.reached_by_index_iff resolved (model.isValid_iff_sound.mpr sound)
    (e := ⟨map, block⟩) (k := 0) (a := first) (i := 0) (t := ctrl) (by decide) (by decide)
    (by decide) rfl (by decide) (by decide) (by decide)
  exact ⟨hreached.1, hreached.2.mpr (by decide)⟩

/-- Not all registers of arrays are reached by index: the validator passes the document, but the
array that is found by the name of the second one has no instance 1. -/
theorem not_all_reached_by_index :
    ¬ ∀ (options : Options) (sections : List Yaml.Value) (m : Model),
      Model.ofSections options sections = .ok m → m.isValid = true →
      (∀ map ∈ m.memoryMaps, '.' ∉ map.name.toList) →
      (∀ map ∈ m.memoryMaps, ∀ b ∈ map.blocks, ∀ a ∈ b.arrays, '.' ∉ a.name.toList) →
      ∀ map ∈ m.memoryMaps, ∀ b ∈ map.blocks, ∀ a ∈ b.arrays, ∀ i,
        a.descriptor.contains i = true → ∀ t ∈ a.registers, a.materialize i t ∈ b.registers →
        ∃ h, m.handle (.ofInstance s!"{map.name}.{b.name}.{a.name}" i t.name) = .ok h ∧
          h.register = a.materialize i t := by
  intro hall
  have hlisted : second.materialize 1 ctrl ∈ block.registers := by decide +kernel
  have hmissed : model.handle (.ofInstance "soc.unit.ch" 1 "ctrl") =
      .error (.indexOutOfRange "soc.unit.ch" 1 1) := by
    decide +kernel
  obtain ⟨h, hh, -⟩ := hall {} document model resolved (model.isValid_iff_sound.mpr sound)
    (by decide) (by decide) map (by decide) block (by decide) second (by decide) 1 (by decide) ctrl
    (by decide) hlisted
  cases hmissed.symm.trans hh

end TwoArrays

end RegisterMap
