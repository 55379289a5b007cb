import RegisterMap.Proofs.Handles
import RegisterMap.Proofs.Separation

/-!
# Registers at One Address

The end of a register and its address are saturating sums. A register at the last offset of the
address space has its end there as well, so that it seems to have no bytes and no check compares it
with another one; and whatever lies past the last address is moved to it. Below the last address the
sums are exact, and registers of a valid block are apart.

## Main results

* `Register.offset_mem_bytes` — a register has its first byte, unless it is at the last offset.
* `Model.last_of_offset_eq` — registers of a valid block have offsets of their own, but for the last
  one.
* `Model.same_address_iff` — which registers of a valid block have the same address.
-/

namespace RegisterMap

/-- The register starts **at the last address or past it**. -/
def RegisterEntry.AtLast (e : RegisterEntry) : Prop :=
  UInt64.size - 1 ≤ e.block.baseOffset.toNat + e.register.offset.toNat

/-! ### Offsets and addresses -/

/-- An address is the sum of the two offsets, **clamped to the last address**. -/
theorem RegisterEntry.address_toNat (e : RegisterEntry) :
    e.address.toNat =
      min (e.block.baseOffset.toNat + e.register.offset.toNat) (UInt64.size - 1) := by
  rw [address, satAdd_toNat]

/-- Registers that were read from a document **have bytes**. -/
theorem Register.From.sizeBytes_pos {options : Options} {r : Register}
    (h : r.From (·.IsRead options)) : 0 < r.sizeBytes.toNat := by
  have hwidth := h.width_supported
  simp only [supportedWidths, List.mem_cons, List.not_mem_nil, or_false] at hwidth
  rw [Register.sizeBytes]
  rcases hwidth with hwidth | hwidth | hwidth | hwidth <;> rw [hwidth] <;> decide

/-- Below the last offset a register has **its first byte**. -/
theorem Register.offset_mem_bytes {r : Register} (hsize : 0 < r.sizeBytes.toNat)
    (hlt : r.offset.toNat < UInt64.size - 1) : r.offset.toNat ∈ r.bytes := by
  have hend : r.endOffset.toNat = min (r.offset.toNat + r.sizeBytes.toNat) (UInt64.size - 1) := by
    rw [endOffset, satAdd_toNat]
  rw [bytes, Set.mem_Ico]
  omega

namespace Model

variable {m : Model} {p : BlockPosition} {k l : ℕ} {a b : RegisterEntry}

/-- Registers at two positions of one block are in the same block. -/
theorem RegisterAt.block_eq (ha : m.RegisterAt (p, k) a) (hb : m.RegisterAt (p, l) b) :
    a.block = b.block := by
  have hmap : a.map = b.map := Option.some.inj (ha.1.1.symm.trans hb.1.1)
  exact Option.some.inj (ha.1.2.symm.trans (hmap ▸ hb.1.2))

/-- Two registers of a sound block have the same offset only if it is **the last one**. -/
theorem last_of_offset_eq (hm : m.Sound) (ha : m.RegisterAt (p, k) a) (hb : m.RegisterAt (p, l) b)
    (hne : k ≠ l) (hsizeA : 0 < a.register.sizeBytes.toNat)
    (hsizeB : 0 < b.register.sizeBytes.toNat) (hoffset : a.register.offset = b.register.offset) :
    UInt64.size - 1 ≤ a.register.offset.toNat := by
  by_contra hlast
  have hlt : a.register.offset.toNat < UInt64.size - 1 := Nat.lt_of_not_le hlast
  have hapart : Disjoint a.register.bytes b.register.bytes :=
    disjoint_of_pairwise (hm.block ha.1).registers_apart ha.2 (ha.block_eq hb ▸ hb.2) hne
  have hmemA := Register.offset_mem_bytes hsizeA hlt
  have hmemB := Register.offset_mem_bytes hsizeB (hoffset ▸ hlt)
  exact hapart.le_bot ⟨hmemA, hoffset ▸ hmemB⟩

/-- A register has the address of another one of its block only if **both are at the last
address**. -/
theorem atLast_of_address_eq (hm : m.Sound) (ha : m.RegisterAt (p, k) a)
    (hb : m.RegisterAt (p, l) b) (hne : k ≠ l) (hsizeA : 0 < a.register.sizeBytes.toNat)
    (hsizeB : 0 < b.register.sizeBytes.toNat) (haddress : a.address = b.address) :
    a.AtLast := by
  by_contra hlast
  have hlt : a.block.baseOffset.toNat + a.register.offset.toNat < UInt64.size - 1 :=
    Nat.lt_of_not_le hlast
  have hsums : min (a.block.baseOffset.toNat + a.register.offset.toNat) (UInt64.size - 1) =
      min (a.block.baseOffset.toNat + b.register.offset.toNat) (UInt64.size - 1) := by
    have haddresses := congrArg UInt64.toNat haddress
    rwa [a.address_toNat, b.address_toNat, ← ha.block_eq hb] at haddresses
  have hoffset : a.register.offset = b.register.offset := UInt64.toNat_inj.mp (by omega)
  have hle := last_of_offset_eq hm ha hb hne hsizeA hsizeB hoffset
  omega

/-- **Registers at one address.** Two registers of a block of a resolved model that breaks no rule
have the same address if and only if both start at the last address or past it. Every handle of the
model has the address of one of its registers. -/
theorem same_address_iff {options : Options} {sections : List Yaml.Value}
    (hresolved : ofSections options sections = .ok m) (hvalid : m.isValid = true)
    (ha : m.RegisterAt (p, k) a) (hb : m.RegisterAt (p, l) b) (hne : k ≠ l) :
    (a.address = b.address ↔ a.AtLast ∧ b.AtLast) ∧
      ∀ target h, m.handle target = .ok h →
        ∃ q e, m.RegisterAt q e ∧ e.register = h.register ∧ e.address = h.address := by
  have hm : m.Sound := m.isValid_iff_sound.mp hvalid
  have hfrom := ofSections_resolvedFrom options sections m hresolved
  have hsize {q : RegisterPosition} {e : RegisterEntry} (he : m.RegisterAt q e) :
      0 < e.register.sizeBytes.toNat :=
    ((hfrom _ he.mem.1 _ he.mem.2.1).registers_from _ he.mem.2.2).sizeBytes_pos
  constructor
  · constructor
    · intro haddress
      exact ⟨atLast_of_address_eq hm ha hb hne (hsize ha) (hsize hb) haddress,
        atLast_of_address_eq hm hb ha hne.symm (hsize hb) (hsize ha) haddress.symm⟩
    · rintro ⟨hlastA, hlastB⟩
      rw [RegisterEntry.AtLast] at hlastA hlastB
      refine UInt64.toNat_inj.mp ?_
      rw [a.address_toNat, b.address_toNat]
      omega
  · intro target h hh
    obtain ⟨map, hmap, block, hblock, hregister, haddress⟩ :=
      exists_block_of_handle (fun map hmap b hb => (hfrom map hmap b hb).expanded) hh
    obtain ⟨i, hi⟩ := List.getElem?_of_mem hmap
    obtain ⟨j, hj⟩ := List.getElem?_of_mem hblock
    obtain ⟨n, hn⟩ := List.getElem?_of_mem hregister
    exact ⟨((i, j), n), ⟨⟨map, block⟩, h.register⟩, ⟨⟨hi, hj⟩, hn⟩, rfl, haddress.symm⟩

end Model

/-! ### Two registers at one offset -/

namespace LastByte

open Yaml (Value)

/-- A register of one byte. -/
def byteAt (name : String) (offset : UInt64) : Value :=
  .map [(.str "name", .str name), (.str "offset", .int offset.toNat), (.str "size", .int 8)]

/-- A document with two registers of one byte at the same offset, and one in front of them. -/
def document (offset : UInt64) : List Value :=
  [.map [(.str "memoryMaps", .seq [.map
    [(.str "name", .str "soc"), (.str "addressBlocks", .seq [.map
      [(.str "name", .str "unit"), (.str "offset", .int 0), (.str "registers", .seq
        [byteAt "first" offset, byteAt "second" offset, byteAt "low" 0])]])]])]]

/-- A register of the document. -/
def byte (name : String) (offset : UInt64) : Register :=
  { name, offset, width := 8, access := .readWrite }

/-- The block of the document. -/
def block (offset : UInt64) : AddressBlock :=
  { name := "unit", baseOffset := 0, size := max (satAdd offset 1) 64
    registers := [byte "first" offset, byte "second" offset, byte "low" 0] }

/-- The map of the document. -/
def map (offset : UInt64) : MemoryMap := { name := "soc", blocks := [block offset] }

/-- The model of the document. -/
def model (offset : UInt64) : Model := { memoryMaps := [map offset] }

/-- A register of the model. -/
def entry (offset : UInt64) (r : Register) : RegisterEntry :=
  { map := map offset, block := block offset, register := r }

/-- The last offset. -/
def last : UInt64 := 0xffffffffffffffff

/-- The document with two registers at the last byte resolves. -/
theorem resolved : Model.ofSections {} (document last) = .ok (model last) :=
  eq_ok_of_toOption (by decide +kernel)

/-- The bytes of a register of one byte, up to its clamped end. -/
theorem bytes_eq (name : String) (offset : UInt64) :
    (byte name offset).bytes = Set.Ico offset.toNat (satAdd offset 1).toNat := by
  have hsize : (byte name offset).sizeBytes = 1 := by
    simp only [Register.sizeBytes, byte]
    decide
  rw [Register.bytes, Register.endOffset, hsize, byte]

/-- At the last address **it has none**. -/
theorem bytes_last (name : String) : (byte name last).bytes = ∅ := by
  rw [bytes_eq, Set.Ico_eq_empty]
  decide

/-- One byte lower, the registers overlap in the last byte but one. -/
theorem not_sound : ¬ (model (last - 1)).Sound := by
  intro h
  have hblock := (h.maps_sound _ List.mem_cons_self).blocks_sound _ List.mem_cons_self
  have hapart : Disjoint (byte "first" (last - 1)).bytes (byte "second" (last - 1)).bytes :=
    (List.pairwise_cons.mp hblock.registers_apart).1 _ List.mem_cons_self
  have hshared (name : String) : (last - 1).toNat ∈ (byte name (last - 1)).bytes := by
    rw [bytes_eq, Set.mem_Ico]
    decide
  exact Set.disjoint_left.mp hapart (hshared "first") (hshared "second")

/-- So the model is valid. -/
theorem valid : (model last).isValid = true := by
  refine (model last).isValid_iff_sound.mpr ⟨fun kind => ?_, by simp [model], ?_⟩
  · cases kind <;> simp [model, Model.namesOf]
  have hsound (name : String) (offset : UInt64) : (byte name offset).Sound :=
    Register.sound_of_no_fields rfl rfl
  refine List.forall_mem_singleton.mpr (MemoryMap.sound_of_block rfl ?_)
  refine ⟨?_, by simp [block, byte], by simp [block], ?_⟩
  · simp [block, bytes_last]
  · simp [block, hsound]

/-- At the last offset the two registers have one address, which the third one has not. -/
theorem same_address_iff_last :
    (entry last (byte "first" last)).address = (entry last (byte "second" last)).address ∧
      (entry last (byte "first" last)).address ≠ (entry last (byte "low" 0)).address := by
  have hfirst : (model last).RegisterAt ((0, 0), 0) (entry last (byte "first" last)) :=
    ⟨⟨rfl, rfl⟩, rfl⟩
  have hsecond : (model last).RegisterAt ((0, 0), 1) (entry last (byte "second" last)) :=
    ⟨⟨rfl, rfl⟩, rfl⟩
  have hlow : (model last).RegisterAt ((0, 0), 2) (entry last (byte "low" 0)) :=
    ⟨⟨rfl, rfl⟩, rfl⟩
  constructor
  · refine (Model.same_address_iff resolved valid hfirst hsecond (by decide)).1.mpr ?_
    constructor <;> unfold RegisterEntry.AtLast <;> decide
  · intro haddress
    obtain ⟨-, hlast⟩ :=
      (Model.same_address_iff resolved valid hfirst hlow (by decide)).1.mp haddress
    unfold RegisterEntry.AtLast at hlast
    exact absurd hlast (by decide)

/-- Not all registers of a valid block are at addresses of their own. One byte lower, the same two
registers are found to overlap. -/
theorem not_all_apart :
    (model (last - 1)).isValid = false ∧
      ¬ ∀ (options : Options) (sections : List Value) (m : Model),
        Model.ofSections options sections = .ok m → m.isValid = true →
          ∀ p k l a b, m.RegisterAt (p, k) a → m.RegisterAt (p, l) b → k ≠ l →
            a.address ≠ b.address := by
  refine ⟨?_, fun hall => ?_⟩
  · exact Bool.eq_false_iff.mpr fun h => not_sound ((Model.isValid_iff_sound _).mp h)
  exact hall {} (document last) (model last) resolved valid (0, 0) 0 1
    (entry last (byte "first" last)) (entry last (byte "second" last)) ⟨⟨rfl, rfl⟩, rfl⟩
    ⟨⟨rfl, rfl⟩, rfl⟩ (by decide) rfl

end LastByte

end RegisterMap
