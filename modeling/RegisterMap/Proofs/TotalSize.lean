import Mathlib.Algebra.Order.BigOperators.Group.List
import Mathlib.Algebra.Order.Group.Nat
import Mathlib.Data.Set.Finite.Lemmas
import RegisterMap.Proofs.Validity

/-!
# The Total Size of a Map

The sizes of the blocks of a map are added up in 64 bits, without regard to gaps and overlaps. No
block bounds the others, so nothing about a single block keeps the sum within 64 bits. Blocks that
do not overlap do: their bytes, listed block by block, are pairwise different numbers below the
largest end of a block, and there are no more of these than that end.

## Main results

* `MemoryMap.totalSize_toNat` — the sum, modulo the size of the address space.
* `MemoryMap.totalSize?_eq_some_iff` — the checked sum, where there is one.
* `MemoryMap.blockOverlaps_eq_nil_iff` — no overlap is reported exactly when the blocks are apart.
* `AddressBlock.sum_size_le` — blocks that are apart are no larger, all together, than their ends.
* `MemoryMap.totalSize_exact` — the additions do not overflow, and the largest end bounds the sum.
-/

namespace RegisterMap

/-! ### Sums -/

namespace MemoryMap

/-- The map with its **first `n` blocks** alone. -/
def first (m : MemoryMap) (n : ℕ) : MemoryMap := { m with blocks := m.blocks.take n }

/-- The **exact sum** of the sizes of the blocks. -/
def exactSize (m : MemoryMap) : ℕ := (m.blocks.map (·.size.toNat)).sum

/-- The total size is the exact sum, **modulo** the size of the address space. -/
theorem totalSize_toNat (m : MemoryMap) : m.totalSize.toNat = m.exactSize % UInt64.size := by
  have hfold (blocks : List AddressBlock) (acc : UInt64) :
      (blocks.foldl (fun acc b => acc + b.size) acc).toNat =
        (acc.toNat + (blocks.map (·.size.toNat)).sum) % UInt64.size := by
    induction blocks generalizing acc with
    | nil => exact (Nat.mod_eq_of_lt acc.toNat_lt).symm
    | cons b blocks ih =>
        rw [List.foldl_cons, ih, List.map_cons, List.sum_cons, UInt64.toNat_add, ← Nat.add_assoc]
        exact Nat.mod_add_mod _ _ _
  rw [totalSize, hfold, UInt64.toNat_zero, Nat.zero_add, exactSize]

/-- The checked sum is the **exact sum**, if that fits in 64 bits. -/
theorem totalSize?_eq_some_iff {m : MemoryMap} {n : UInt64} :
    m.totalSize? = some n ↔ n.toNat = m.exactSize := by
  have hfold (blocks : List AddressBlock) (acc : UInt64) :
      (blocks.foldlM (fun acc b => nat64? (acc.toNat + b.size.toNat : ℕ)) acc) = some n ↔
        n.toNat = acc.toNat + (blocks.map (·.size.toNat)).sum := by
    induction blocks generalizing acc with
    | nil =>
        rw [List.foldlM_nil, Option.pure_def, Option.some.injEq, List.map_nil, List.sum_nil,
          Nat.add_zero, UInt64.toNat_inj]
        exact eq_comm
    | cons b blocks ih =>
        rw [List.foldlM_cons, Option.bind_eq_bind, Option.bind_eq_some_iff, List.map_cons,
          List.sum_cons, ← Nat.add_assoc]
        simp only [ih, nat64?_eq_some_iff, Int.ofNat_inj]
        constructor
        · rintro ⟨sum, hsum, hn⟩
          rw [hn, hsum]
        · intro hn
          have hroom : acc.toNat + b.size.toNat < UInt64.size :=
            Nat.lt_of_le_of_lt (hn ▸ Nat.le_add_right _ _) n.toNat_lt
          exact ⟨.ofNat _, UInt64.toNat_ofNat_of_lt' hroom,
            by rw [hn, UInt64.toNat_ofNat_of_lt' hroom]⟩
  rw [totalSize?, hfold, UInt64.toNat_zero, Nat.zero_add, exactSize]

/-- One block more adds its size. -/
theorem exactSize_first_succ (m : MemoryMap) {n : ℕ} {b : AddressBlock}
    (hb : m.blocks[n]? = some b) :
    (m.first (n + 1)).exactSize = (m.first n).exactSize + b.size.toNat := by
  simp [exactSize, first, List.take_add_one, hb]

/-- No prefix of a map is larger than the map. -/
theorem exactSize_first_le (m : MemoryMap) (n : ℕ) : (m.first n).exactSize ≤ m.exactSize :=
  ((List.take_sublist n m.blocks).map _).sum_le_sum fun _ _ => Nat.zero_le _

/-- No overlap is reported exactly when the blocks are **apart**. -/
theorem blockOverlaps_eq_nil_iff (m : MemoryMap) :
    m.blockOverlaps = [] ↔ m.blocks.Pairwise fun b c => Disjoint b.bytes c.bytes := by
  have hlists : Lists (ClashReport (·.baseOffset) (·.endOffset) (·.name) .blockOverlap m.name
      m.blocks) m.blockOverlaps :=
    lists_clashReports fun _ => ⟨rfl, rfl, rfl⟩
  exact hlists.eq_nil_iff.trans no_clashReport_iff

end MemoryMap

/-! ### Packing -/

namespace AddressBlock

/-- The end of the block is an **exact sum**. -/
def Unclamped (b : AddressBlock) : Prop := b.baseOffset.toNat + b.size.toNat < UInt64.size

instance (b : AddressBlock) : Decidable b.Unclamped := inferInstanceAs (Decidable (_ < _))

/-- The bytes of a block, **listed** in order. -/
def listedBytes (b : AddressBlock) : List ℕ := List.range' b.baseOffset.toNat b.size.toNat

/-- Where nothing is clamped, the bytes that are listed are **those of the block**. -/
theorem mem_listedBytes {b : AddressBlock} (h : b.Unclamped) {x : ℕ} :
    x ∈ b.listedBytes ↔ x ∈ b.bytes := by
  have hend : b.endOffset.toNat = b.baseOffset.toNat + b.size.toNat := by
    rw [Unclamped] at h
    rw [endOffset, satAdd_toNat]
    omega
  rw [listedBytes, List.mem_range'_1, bytes, Set.mem_Ico, hend]

/-- Blocks that are apart have no more bytes, all together, than there are numbers **below their
ends**. -/
theorem sum_size_le {blocks : List AddressBlock} {last : ℕ}
    (hapart : blocks.Pairwise fun b c => Disjoint b.bytes c.bytes)
    (hroom : ∀ b ∈ blocks, b.Unclamped) (hlast : ∀ b ∈ blocks, b.endOffset.toNat ≤ last) :
    (blocks.map (·.size.toNat)).sum ≤ last := by
  have hdifferent : (blocks.flatMap listedBytes).Nodup := by
    rw [List.nodup_flatMap]
    refine ⟨fun b _ => List.nodup_range', hapart.imp_of_mem fun {b c} hb hc hbc x hxb hxc => ?_⟩
    rw [mem_listedBytes (hroom b hb)] at hxb
    rw [mem_listedBytes (hroom c hc)] at hxc
    exact hbc.le_bot ⟨hxb, hxc⟩
  have hbelow : blocks.flatMap listedBytes ⊆ List.range last := by
    intro x hx
    obtain ⟨b, hb, hxb⟩ := List.mem_flatMap.mp hx
    rw [mem_listedBytes (hroom b hb)] at hxb
    exact List.mem_range.mpr (Nat.lt_of_lt_of_le hxb.2 (hlast b hb))
  have hlength := (hdifferent.subperm hbelow).length_le
  simpa only [List.length_flatMap, listedBytes, List.length_range', List.length_range] using hlength

end AddressBlock

namespace MemoryMap

variable {m : MemoryMap}

/-- **Total sizes.** In a map about whose blocks no overlap is reported and whose blocks end within
the address space, no addition of the total size overflows: not when the size of a block is added to
those of the blocks before it, and so the checked sum is there and the total size is the exact sum.
If the map has blocks, then the largest of their ends is no less than the total size. -/
theorem totalSize_exact (hreports : m.blockOverlaps = [])
    (hroom : ∀ b ∈ m.blocks, b.Unclamped) :
    (∀ n b, m.blocks[n]? = some b →
      (m.first n).totalSize.toNat + b.size.toNat < UInt64.size) ∧
    m.totalSize? = some m.totalSize ∧
    m.totalSize.toNat = m.exactSize ∧
    (m.blocks ≠ [] → ∃ b ∈ m.blocks, (∀ c ∈ m.blocks, c.endOffset ≤ b.endOffset) ∧
      m.totalSize ≤ b.endOffset) := by
  have hapart := m.blockOverlaps_eq_nil_iff.mp hreports
  have hsum : m.exactSize < UInt64.size := by
    have hlast : ∀ b ∈ m.blocks, b.endOffset.toNat ≤ UInt64.size - 1 :=
      fun b _ => Nat.le_pred_of_lt b.endOffset.toNat_lt
    exact Nat.lt_of_le_of_lt (AddressBlock.sum_size_le hapart hroom hlast) (by decide)
  have htotal : m.totalSize.toNat = m.exactSize := by
    rw [totalSize_toNat, Nat.mod_eq_of_lt hsum]
  refine ⟨fun n b hb => ?_, totalSize?_eq_some_iff.mpr htotal, htotal, fun hblocks => ?_⟩
  · have hnext := m.exactSize_first_le (n + 1)
    rw [m.exactSize_first_succ hb] at hnext
    rw [totalSize_toNat, Nat.mod_eq_of_lt (by omega)]
    omega
  · obtain ⟨b, hb, hlargest⟩ := Set.exists_max_image {b | b ∈ m.blocks} (·.endOffset.toNat)
      (List.finite_toSet m.blocks) (List.exists_mem_of_ne_nil _ hblocks)
    refine ⟨b, hb, fun c hc => UInt64.le_iff_toNat_le.mpr (hlargest c hc), ?_⟩
    rw [UInt64.le_iff_toNat_le, htotal]
    exact AddressBlock.sum_size_le hapart hroom hlargest

end MemoryMap

/-! ### Four blocks out of order -/

namespace FilledMap

/-- A map whose blocks fill the address space but for its last byte and a gap; one of them is empty
and lies within another one. -/
def map : MemoryMap :=
  { name := "soc"
    blocks :=
      [{ name := "high", baseOffset := 0x8000000000000000, size := 0x7fffffffffffffff },
        { name := "low", baseOffset := 0, size := 0x1000 },
        { name := "empty", baseOffset := 0x800, size := 0 },
        { name := "middle", baseOffset := 0x2000, size := 0x7fffffffffffe000 }] }

/-- The sizes add up to less than the end of the first block. -/
theorem totalSize_exact_filled :
    map.blockOverlaps = [] ∧ map.totalSize.toNat = 2 ^ 64 - 4097 ∧
      ∃ b ∈ map.blocks, map.totalSize ≤ b.endOffset := by
  have hreports : map.blockOverlaps = [] := by
    rw [MemoryMap.blockOverlaps_eq_nil_iff]
    simp [map, AddressBlock.bytes, AddressBlock.endOffset, satAdd_toNat, UInt64.size]
  obtain ⟨-, -, htotal, hlargest⟩ := MemoryMap.totalSize_exact hreports (by decide)
  obtain ⟨b, hb, -, hle⟩ := hlargest (List.cons_ne_nil _ _)
  exact ⟨hreports, htotal, b, hb, hle⟩

end FilledMap

end RegisterMap
