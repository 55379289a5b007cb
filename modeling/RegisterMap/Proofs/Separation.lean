import RegisterMap.Proofs.Origins
import RegisterMap.Proofs.Validity

/-!
# Registers of One Map Share No Bytes

The validator compares registers within a block and blocks within a map; no check looks at registers
of two blocks. What it guarantees about them is derived here: as long as no sum of offsets and sizes
leaves the address space, two registers of a valid map share bytes only if they are in different
blocks and one of them reaches past the end of its own block. Nothing of the kind can happen where
every block has the size that follows from its registers.

## Main results

* `RegisterEntry.mem_addresses` — the addresses of a register, relative to its block.
* `DraftBlock.resolve_contains` — a block without a size of its own contains its registers.
* `Model.shared_address` — the guarantee for the registers of a map.
-/

namespace RegisterMap

/-- The **addresses** of a register's bytes, within its map. -/
def RegisterEntry.addresses (e : RegisterEntry) : Set ℕ :=
  Set.Ico e.address.toNat (e.address.toNat + e.register.sizeBytes.toNat)

/-- The register reaches **past the end** of its own block. -/
def RegisterEntry.Spills (e : RegisterEntry) : Prop := e.block.size < e.register.endOffset

/-- Blocks and registers end **within the address space**: no sum of theirs is clamped. -/
structure Model.Unclamped (m : Model) : Prop where
  blocks : ∀ map ∈ m.memoryMaps, ∀ b ∈ map.blocks,
    b.baseOffset.toNat + b.size.toNat < UInt64.size
  registers : ∀ map ∈ m.memoryMaps, ∀ b ∈ map.blocks, ∀ r ∈ b.registers,
    b.baseOffset.toNat + r.offset.toNat + r.sizeBytes.toNat < UInt64.size

/-! ### Addresses and blocks -/

namespace RegisterEntry

variable {e : RegisterEntry} {x : ℕ}

/-- The addresses of a register are its bytes, counted from the base of its block. -/
theorem mem_addresses
    (h : e.block.baseOffset.toNat + e.register.offset.toNat + e.register.sizeBytes.toNat <
      UInt64.size) :
    x ∈ e.addresses ↔ ∃ y ∈ e.register.bytes, x = e.block.baseOffset.toNat + y := by
  have haddress : e.address.toNat = e.block.baseOffset.toNat + e.register.offset.toNat := by
    rw [address, satAdd_toNat]
    omega
  have hend : e.register.endOffset.toNat =
      e.register.offset.toNat + e.register.sizeBytes.toNat := by
    rw [Register.endOffset, satAdd_toNat]
    omega
  simp only [addresses, Register.bytes, Set.mem_Ico, haddress, hend]
  constructor
  · rintro ⟨hle, hlt⟩
    exact ⟨x - e.block.baseOffset.toNat, by omega, by omega⟩
  · rintro ⟨y, hy, rfl⟩
    omega

/-- The addresses of a register that stays within its block are addresses of the block. -/
theorem mem_block_bytes (hregister : e.block.baseOffset.toNat + e.register.offset.toNat +
      e.register.sizeBytes.toNat < UInt64.size)
    (hblock : e.block.baseOffset.toNat + e.block.size.toNat < UInt64.size) (hstays : ¬ e.Spills)
    (hx : x ∈ e.addresses) : x ∈ e.block.bytes := by
  obtain ⟨y, hy, rfl⟩ := (mem_addresses hregister).mp hx
  have hend : e.block.endOffset.toNat = e.block.baseOffset.toNat + e.block.size.toNat := by
    rw [AddressBlock.endOffset, satAdd_toNat]
    omega
  have hsize : e.register.endOffset.toNat ≤ e.block.size.toNat :=
    UInt64.le_iff_toNat_le.mp (UInt64.not_lt.mp hstays)
  simp only [AddressBlock.bytes, Register.bytes, Set.mem_Ico, hend] at hy ⊢
  omega

end RegisterEntry

/-! ### Inferred sizes -/

/-- The larger of two numbers of 64 bits. -/
theorem max_toNat (a b : UInt64) : (max a b).toNat = max a.toNat b.toNat := by
  change (if a ≤ b then b else a).toNat = _
  split
  · next h => rw [Nat.max_eq_right (UInt64.le_iff_toNat_le.mp h)]
  · next h =>
    have hlt : b.toNat < a.toNat := Nat.not_le.mp fun hle => h (UInt64.le_iff_toNat_le.mpr hle)
    rw [Nat.max_eq_left hlt.le]

/-- The registers end within their span. -/
theorem endOffset_le_spanOf {registers : List Register} {r : Register} (h : r ∈ registers) :
    r.endOffset ≤ spanOf registers := by
  -- The accumulator only grows, and it grows past every register that it meets.
  have grow (acc : UInt64) : ∀ x, x = acc ∨ (∃ r ∈ registers, x = r.endOffset) →
      x.toNat ≤ (registers.foldl (fun acc r => max acc r.endOffset) acc).toNat := by
    clear h
    induction registers generalizing acc with
    | nil => simp
    | cons s registers ih =>
        have hstep := ih (max acc s.endOffset) _ (.inl rfl)
        rw [max_toNat] at hstep
        rintro x (rfl | ⟨r, hr, rfl⟩)
        · exact (Nat.le_max_left _ _).trans hstep
        · rcases List.mem_cons.mp hr with rfl | hr
          · exact (Nat.le_max_right _ _).trans hstep
          · exact ih _ _ (.inr ⟨r, hr, rfl⟩)
  exact UInt64.le_iff_toNat_le.mpr (grow 0 _ (.inr ⟨r, h, rfl⟩))

/-- A block that gives no size **contains its registers**. -/
theorem DraftBlock.resolve_contains (options : Options) (templates : List DraftTemplate)
    {b : DraftBlock} (hsize : b.size = none) :
    Ensures (b.resolve options templates) fun block =>
      ∀ r ∈ block.registers, r.endOffset ≤ block.size := by
  refine Ensures.after fun p => .ok fun r hr => ?_
  simp only [hsize, Option.getD_none, inferBlockSize]
  rw [if_neg (by simp [List.ne_nil_of_mem hr])]
  have hspan := UInt64.le_iff_toNat_le.mp (endOffset_le_spanOf hr)
  rw [UInt64.le_iff_toNat_le, max_toNat]
  exact hspan.trans (Nat.le_max_left _ _)

/-! ### Registers of one map -/

namespace Model

variable {m : Model} {n i j k l x : ℕ} {a b : RegisterEntry}

/-- A register at a position is one of its block, and the block one of its map. -/
theorem RegisterAt.mem {p : RegisterPosition} (h : m.RegisterAt p a) :
    a.map ∈ m.memoryMaps ∧ a.block ∈ a.map.blocks ∧ a.register ∈ a.block.registers :=
  ⟨List.mem_of_getElem? h.1.1, List.mem_of_getElem? h.1.2, List.mem_of_getElem? h.2⟩

/-- The end of a block **does not overflow**. -/
theorem Unclamped.block (h : m.Unclamped) {p : RegisterPosition} (ha : m.RegisterAt p a) :
    a.block.baseOffset.toNat + a.block.size.toNat < UInt64.size :=
  h.blocks _ ha.mem.1 _ ha.mem.2.1

/-- Neither does the end of a register. -/
theorem Unclamped.register (h : m.Unclamped) {p : RegisterPosition} (ha : m.RegisterAt p a) :
    a.block.baseOffset.toNat + a.register.offset.toNat + a.register.sizeBytes.toNat <
      UInt64.size :=
  h.registers _ ha.mem.1 _ ha.mem.2.1 _ ha.mem.2.2

/-- Two registers of one block share no address. -/
theorem not_shared_of_same_block (hm : m.Sound) (hroom : m.Unclamped)
    (ha : m.RegisterAt ((n, i), k) a) (hb : m.RegisterAt ((n, i), l) b) (hne : k ≠ l)
    (hxa : x ∈ a.addresses) : x ∉ b.addresses := by
  intro hxb
  have hmap : a.map = b.map := Option.some.inj (ha.1.1.symm.trans hb.1.1)
  have hblock : a.block = b.block :=
    Option.some.inj (ha.1.2.symm.trans (hmap ▸ hb.1.2))
  obtain ⟨y, hy, rfl⟩ := (RegisterEntry.mem_addresses (hroom.register ha)).mp hxa
  obtain ⟨z, hz, heq⟩ := (RegisterEntry.mem_addresses (hroom.register hb)).mp hxb
  obtain rfl : y = z := by
    rw [hblock] at heq
    omega
  have hapart := ((hm.maps_sound _ ha.mem.1).blocks_sound _ ha.mem.2.1).registers_apart
  exact (disjoint_of_pairwise hapart ha.2 (hblock ▸ hb.2) hne).le_bot ⟨hy, hz⟩

/-- Two registers of different blocks share no address unless one of them spills. -/
theorem spills_of_shared (hm : m.Sound) (hroom : m.Unclamped)
    (ha : m.RegisterAt ((n, i), k) a) (hb : m.RegisterAt ((n, j), l) b) (hne : i ≠ j)
    (hxa : x ∈ a.addresses) (hxb : x ∈ b.addresses) : a.Spills ∨ b.Spills := by
  by_contra hstay
  obtain ⟨hastays, hbstays⟩ := not_or.mp hstay
  have hxa' := RegisterEntry.mem_block_bytes (hroom.register ha)
    (hroom.block ha) hastays hxa
  have hxb' := RegisterEntry.mem_block_bytes (hroom.register hb)
    (hroom.block hb) hbstays hxb
  have hmap : a.map = b.map := Option.some.inj (ha.1.1.symm.trans hb.1.1)
  have hapart := (hm.maps_sound _ ha.mem.1).blocks_apart
  exact (disjoint_of_pairwise hapart ha.1.2 (hmap ▸ hb.1.2) hne).le_bot ⟨hxa', hxb'⟩

/-- No register of a model spills if the document gave no block a size. -/
theorem not_spills_of_inferred {options : Options} {d : Draft}
    (hresolve : d.resolve options = .ok m)
    (hsize : ∀ map ∈ d.maps, ∀ b ∈ map.blocks, b.size = none) {p : RegisterPosition}
    (ha : m.RegisterAt p a) : ¬ a.Spills := by
  obtain ⟨hmap, hblock, hregister⟩ := ha.mem
  obtain ⟨dm, hdm, db, hdb, hb⟩ := d.resolve_blocks options m hresolve _ hmap _ hblock
  exact UInt64.not_lt.mpr
    (DraftBlock.resolve_contains options d.templates (hsize dm hdm db hdb) _ hb _ hregister)

/-- **Separation up to containment.** Two registers at different places of one map of a valid model
share an address only if they are in different blocks and one of them reaches past the end of its
own block. If the document gave no block a size, then they share none. -/
theorem shared_address (hvalid : m.isValid = true) (hroom : m.Unclamped)
    (ha : m.RegisterAt ((n, i), k) a) (hb : m.RegisterAt ((n, j), l) b)
    (hne : (i, k) ≠ (j, l)) :
    (∀ x ∈ a.addresses, x ∈ b.addresses →
      i ≠ j ∧ (a.block.size < a.register.endOffset ∨ b.block.size < b.register.endOffset)) ∧
    ∀ (options : Options) (d : Draft), d.resolve options = .ok m →
      (∀ map ∈ d.maps, ∀ block ∈ map.blocks, block.size = none) →
      Disjoint a.addresses b.addresses := by
  have hm : m.Sound := m.isValid_iff_sound.mp hvalid
  have hshared : ∀ x ∈ a.addresses, x ∈ b.addresses → i ≠ j ∧ (a.Spills ∨ b.Spills) := by
    intro x hxa hxb
    have hij : i ≠ j := by
      rintro rfl
      exact not_shared_of_same_block hm hroom ha hb (fun hkl => hne (hkl ▸ rfl)) hxa hxb
    exact ⟨hij, spills_of_shared hm hroom ha hb hij hxa hxb⟩
  refine ⟨hshared, fun options d hresolve hsize => Set.disjoint_left.mpr fun x hxa hxb => ?_⟩
  rcases (hshared x hxa hxb).2 with h | h
  · exact not_spills_of_inferred hresolve hsize ha h
  · exact not_spills_of_inferred hresolve hsize hb h

end Model

/-! ### Two blocks -/

namespace TwoBlocks

/-- A register of eight bytes at the start of the first block. -/
def wide : Register := { name := "wide", offset := 0, width := 64, access := .readWrite }

/-- A register of four bytes at the start of the second block. -/
def low : Register := { name := "low", offset := 0, width := 32, access := .readWrite }

/-- The first block. -/
def left (size : UInt64) : AddressBlock :=
  { name := "left", baseOffset := 0, size, registers := [wide] }

/-- The second block, right behind the first one. -/
def right (size : UInt64) : AddressBlock :=
  { name := "right", baseOffset := size, size, registers := [low] }

/-- Both blocks in one map. -/
def map (size : UInt64) : MemoryMap := { name := "soc", blocks := [left size, right size] }

/-- The model of that map. -/
def model (size : UInt64) : Model := { memoryMaps := [map size] }

/-- The blocks of a document that gives them no sizes. -/
def draft : Draft where
  shape := .current
  maps :=
    [{ name := "soc", description := none,
       blocks :=
         [{ path := "soc.left", name := "left", description := none, baseOffset := 0,
            size := none, usage := .register,
            entries := [.register
              { path := "soc.left.wide", name := "wide", description := none, offset := none,
                width := 64, access := .readWrite, resetValue := none, fields := [] }] },
          { path := "soc.right", name := "right", description := none, baseOffset := 64,
            size := none, usage := .register,
            entries := [.register
              { path := "soc.right.low", name := "low", description := none, offset := none,
                width := 32, access := .readWrite, resetValue := none, fields := [] }] }] }]

/-- The model is sound, **whatever the size of its blocks**. -/
theorem sound (size : UInt64) : (model size).Sound := by
  have block (b : AddressBlock) (r : Register) (hb : b.registers = [r]) (ha : b.arrays = [])
      (hfields : r.fields = []) (hreset : r.resetValue = none) : b.Sound :=
    AddressBlock.sound_of_register hb ha (Register.sound_of_no_fields hfields hreset)
  refine ⟨fun kind => by cases kind <;> simp [model, Model.namesOf], by simp [model], ?_⟩
  refine List.forall_mem_singleton.mpr ⟨?_, by simp [map, left, right], ?_⟩
  · simp only [map, List.pairwise_cons, List.mem_singleton, forall_eq, List.not_mem_nil]
    refine ⟨?_, by simp⟩
    simp [left, right, AddressBlock.bytes, AddressBlock.endOffset, satAdd_toNat]
  · simp only [map, List.forall_mem_cons]
    exact ⟨block _ wide rfl rfl rfl rfl, block _ low rfl rfl rfl rfl, by simp⟩

/-- Its sums stay in the address space if this size is small. -/
theorem unclamped {size : UInt64} (h : size ≤ 64) : (model size).Unclamped := by
  have hsize : size.toNat ≤ 64 := UInt64.le_iff_toNat_le.mp h
  have hroom : size.toNat + 64 < UInt64.size := by
    rw [UInt64.size]
    omega
  refine ⟨List.forall_mem_singleton.mpr ?_, List.forall_mem_singleton.mpr ?_⟩
  · simp only [map, List.forall_mem_cons]
    refine ⟨?_, ?_, by simp⟩ <;> simp only [left, right, UInt64.toNat_zero] <;> omega
  · simp only [map, left, right, List.forall_mem_cons]
    have hwide : wide.sizeBytes.toNat = 8 := by decide
    have hlow : low.sizeBytes.toNat = 4 := by decide
    refine ⟨⟨?_, by simp⟩, ⟨?_, by simp⟩, by simp⟩ <;>
      simp only [wide, low, UInt64.toNat_zero] at * <;> omega

/-- The first register. -/
def first (size : UInt64) : RegisterEntry :=
  { map := map size, block := left size, register := wide }

/-- The second register. -/
def second (size : UInt64) : RegisterEntry :=
  { map := map size, block := right size, register := low }

/-- With blocks of four bytes the first register spills, and byte 4 belongs to both; with blocks as
large as they are by default, the two share nothing. -/
theorem shared_address_spilling :
    (4 ∈ (first 4).addresses ∧ 4 ∈ (second 4).addresses ∧ (first 4).Spills) ∧
      Disjoint (first 64).addresses (second 64).addresses := by
  have hvalid (size : UInt64) : (model size).isValid = true :=
    (model size).isValid_iff_sound.mpr (sound size)
  have hfirst (size : UInt64) : (model size).RegisterAt ((0, 0), 0) (first size) :=
    ⟨⟨rfl, rfl⟩, rfl⟩
  have hsecond (size : UInt64) : (model size).RegisterAt ((0, 1), 0) (second size) :=
    ⟨⟨rfl, rfl⟩, rfl⟩
  have hshared : 4 ∈ (first 4).addresses ∧ 4 ∈ (second 4).addresses := by
    constructor <;> simp only [RegisterEntry.addresses, Set.mem_Ico] <;> decide
  refine ⟨⟨hshared.1, hshared.2, ?_⟩, ?_⟩
  · obtain ⟨-, hspills | hspills⟩ := (Model.shared_address (hvalid 4) (unclamped (by decide))
      (hfirst 4) (hsecond 4) (by decide)).1 4 hshared.1 hshared.2
    · exact hspills
    · exact absurd hspills (by decide)
  · exact (Model.shared_address (hvalid 64) (unclamped (by decide)) (hfirst 64) (hsecond 64)
      (by decide)).2 {} draft rfl (by simp [draft])

end TwoBlocks

end RegisterMap
