import Mathlib.Order.Bounds.Basic
import RegisterMap.Proofs.Cursor

/-!
# Strides That a Document Leaves Out

An array without a stride gets the least power of two that holds an instance. Powers of two end at
`2 ^ 63` in 64 bits, and a template register at a high offset makes instances that are longer than
that. The rounding has no result then, and the array does not resolve: it stops at an overflow,
before the check that the array ends within the address space. So whatever stride an array is given
in this way is a true power of two, and its instances are apart.

What instances share, and what is reported about them, is a matter of the stride and the span alone.
Both go through `RegisterArray.Spaced`, which holds for every stride that was left out.

## Main results

* `ceilPowerOfTwo?_eq_some_iff` — the rounding, as the least power of two in exact arithmetic.
* `defaultStride?_eq_none_iff` — when there is no stride to be had.
* `DraftArray.resolve_strideOverflow_iff` — when an array stops at an overflow.
* `RegisterArray.FitsAddressSpace.disjoint_instanceSpan` — instances that share no bytes.
* `DraftArray.defaultStride_sound` — a stride that is left out is a good one.
-/

namespace RegisterMap

/-! ### Powers of two -/

/-- The exponents of the powers of two that are **at least `n`**. -/
theorem ceilLog2_le_iff {n k : ℕ} : ceilLog2 n ≤ k ↔ n ≤ 2 ^ k := by
  unfold ceilLog2
  split
  · next h => exact iff_of_true (Nat.zero_le k) (Nat.le_trans h Nat.one_le_two_pow)
  · next h =>
    rw [Nat.succ_le_iff, Nat.log2_lt (by omega)]
    omega

/-- Rounding up finds the **least power of two** that is at least `n`. -/
theorem isLeast_two_pow_ceilLog2 (n : ℕ) :
    IsLeast {m : ℕ | m.isPowerOfTwo ∧ n ≤ m} (2 ^ ceilLog2 n) := by
  refine ⟨⟨⟨_, rfl⟩, ceilLog2_le_iff.mp (Nat.le_refl _)⟩, ?_⟩
  rintro _ ⟨⟨k, rfl⟩, hk⟩
  exact Nat.pow_le_pow_right (by decide) (ceilLog2_le_iff.mpr hk)

/-- Rounding in 64 bits gives the **exact power**, or nothing. -/
theorem ceilPowerOfTwo?_eq_some_iff {n p : UInt64} :
    ceilPowerOfTwo? n = some p ↔ p.toNat = 2 ^ ceilLog2 n.toNat := by
  rw [ceilPowerOfTwo?, nat64?_eq_some_iff, Nat.one_shiftLeft, Int.ofNat_inj]

/-- Past `2 ^ 63`, and only there, **64 bits hold no power of two** that is large enough. -/
theorem ceilPowerOfTwo?_eq_none_iff {n : UInt64} :
    ceilPowerOfTwo? n = none ↔ 2 ^ 63 < n.toNat := by
  rw [← Nat.not_le, ← ceilLog2_le_iff, Option.eq_none_iff_forall_ne_some]
  constructor
  · intro hnone hexponent
    have hroom : 2 ^ ceilLog2 n.toNat < UInt64.size :=
      Nat.pow_lt_pow_right (by decide) (Nat.lt_succ_of_le hexponent)
    exact hnone (.ofNat _) (ceilPowerOfTwo?_eq_some_iff.mpr (UInt64.toNat_ofNat_of_lt' hroom))
  · intro hexponent p hp
    have hlt : 2 ^ ceilLog2 n.toNat < 2 ^ 64 := ceilPowerOfTwo?_eq_some_iff.mp hp ▸ p.toNat_lt
    have hexponent' : ceilLog2 n.toNat < 64 := (Nat.pow_lt_pow_iff_right (by decide)).mp hlt
    exact hexponent (Nat.le_of_lt_succ hexponent')

/-! ### Default strides -/

/-- A default stride is the **least power of two** that holds an instance. -/
theorem defaultStride?_isLeast {span stride : UInt64} (h : defaultStride? span = some stride) :
    IsLeast {m : ℕ | m.isPowerOfTwo ∧ max span.toNat 1 ≤ m} stride.toNat := by
  rw [ceilPowerOfTwo?_eq_some_iff.mp h, max_toNat]
  exact isLeast_two_pow_ceilLog2 _

/-- There is no default stride for instances of **more than `2 ^ 63` bytes**. -/
theorem defaultStride?_eq_none_iff {span : UInt64} :
    defaultStride? span = none ↔ 2 ^ 63 < span.toNat := by
  rw [defaultStride?, ceilPowerOfTwo?_eq_none_iff, max_toNat]
  exact lt_max_iff.trans (or_iff_left (by decide))

/-! ### Spans of instances -/

namespace RegisterArray

variable {a : RegisterArray}

/-- The bytes that instance `i` **spans**, with the gaps between its registers. -/
def instanceSpan (a : RegisterArray) (i : UInt64) : Set ℕ :=
  Set.Ico (a.instanceOffset i).toNat ((a.instanceOffset i).toNat + a.span.toNat)

/-- An instance starts where exact sums put it, in an array that **fits the address space**. -/
theorem FitsAddressSpace.instanceOffset_toNat (h : a.FitsAddressSpace) {i : UInt64}
    (hi : i < a.descriptor.count) : (a.instanceOffset i).toNat = a.instanceStart i := by
  have hroom := h.instanceStart_add_span_lt hi
  rw [instanceStart] at hroom ⊢
  rw [instanceOffset, ArrayDescriptor.offsetOf, satAdd_toNat, satMul_toNat]
  omega

/-- With room for them, the spans of two instances **share no bytes**. -/
theorem FitsAddressSpace.disjoint_instanceSpan (h : a.FitsAddressSpace) (hspaced : a.Spaced)
    {i j : UInt64} (hij : i < j) (hj : j < a.descriptor.count) :
    Disjoint (a.instanceSpan i) (a.instanceSpan j) := by
  have hbehind := hspaced.instanceStart_add_span_le hij hj
  rw [instanceSpan, instanceSpan, h.instanceOffset_toNat (UInt64.lt_trans hij hj),
    h.instanceOffset_toNat hj, Set.Ico_disjoint_Ico]
  omega

end RegisterArray

/-- No report about strides is about an array with **room** for its instances. -/
theorem BlockEntry.strideReport_ne (e : BlockEntry) {n : ℕ} {v : Violation}
    (hv : e.StrideReport n v) {a : RegisterArray} (hspaced : a.Spaced) :
    e.block.arrays[n]? ≠ some a := by
  intro ha
  obtain ⟨a', ha', ⟨hcount, hshort⟩, -⟩ := hv
  obtain rfl : a' = a := Lists.position_functional n a' a ha' ha
  rcases hspaced with hone | hroom
  · exact UInt64.not_le.mpr hcount hone
  · exact UInt64.not_le.mpr hshort hroom

/-! ### Strides that are left out -/

namespace DraftArray

variable {templates : List DraftTemplate} {d : DraftArray DraftEntry} {cursor : Address}
  {a : RegisterArray}

/-- The stride that an array without one gets. -/
theorem strideFor_eq_ok_iff (hstride : d.stride = none) {span stride : UInt64} :
    d.strideFor span = .ok stride ↔ defaultStride? span = some stride := by
  rw [strideFor, hstride, Option.none_or]
  cases defaultStride? span with
  | none => exact iff_of_false nofun nofun
  | some found => rw [Except.ok.injEq, Option.some.injEq]

/-- An array without a stride **stops at an overflow** exactly when its instances span more than
`2 ^ 63` bytes. Nothing has been asked about the address space by then. -/
theorem resolve_strideOverflow_iff (hstride : d.stride = none) {entries : List DraftEntry}
    (hentries : d.bodyEntries templates = .ok entries) {registers : List Register}
    (hregisters : resolveTemplate 0 entries = .ok registers) :
    d.resolve templates cursor = .error ⟨d.path, .strideOverflow (spanOf registers)⟩ ↔
      2 ^ 63 < (spanOf registers).toNat := by
  rw [← defaultStride?_eq_none_iff]
  cases hdefault : defaultStride? (spanOf registers) with
  | none =>
      have hstops : d.strideFor (spanOf registers) =
          failAt d.path (.strideOverflow (spanOf registers)) := by
        rw [strideFor, hstride, Option.none_or, hdefault]
      refine iff_of_true ?_ rfl
      simp only [resolve, hentries, hregisters, hstops, Except.bind, bind, failAt]
  | some stride =>
      have hgoes := (strideFor_eq_ok_iff hstride).mpr hdefault
      refine iff_of_false ?_ nofun
      simp only [resolve, hentries, hregisters, hgoes, Except.bind, bind]
      split
      · simp [failAt]
      · nofun

/-- **Strides that are left out.** Take an array without a stride that resolves. An instance spans
at most `2 ^ 63` bytes, and the stride is the least power of two that holds it. So no two instances
share a byte of their spans, and wherever a block lists the array, what the check of strides reports
is about other arrays. -/
theorem defaultStride_sound (hresolve : d.resolve templates cursor = .ok a)
    (hstride : d.stride = none) :
    a.span.toNat ≤ 2 ^ 63 ∧
      IsLeast {m : ℕ | m.isPowerOfTwo ∧ max a.span.toNat 1 ≤ m} a.descriptor.stride.toNat ∧
      (∀ i j, i < j → j < a.descriptor.count →
        Disjoint (a.instanceSpan i) (a.instanceSpan j)) ∧
      ∀ e : BlockEntry,
        Lists (fun n v => e.StrideReport n v ∧ e.block.arrays[n]? ≠ some a) e.shortStrides := by
  have hdefault : defaultStride? a.span = some a.descriptor.stride :=
    (strideFor_eq_ok_iff hstride).mp (d.resolve_resolvesTo cursor a hresolve).stride_eq
  have hleast := defaultStride?_isLeast hdefault
  have hspaced : a.Spaced :=
    .inr (UInt64.le_iff_toNat_le.mpr ((Nat.le_max_left _ _).trans hleast.1.2))
  refine ⟨?_, hleast, ?_, fun e => ?_⟩
  · rw [← Nat.not_lt, ← defaultStride?_eq_none_iff, hdefault]
    nofun
  · intro i j hij hj
    exact (d.resolve_fits templates cursor a hresolve).2.disjoint_instanceSpan hspaced hij hj
  · exact e.lists_strideReports.congr fun n v =>
      and_iff_left_of_imp fun hv => e.strideReport_ne hv hspaced

end DraftArray

/-! ### Two instances at high offsets -/

namespace HighTemplate

/-- A list of one register, `offset` bytes behind the start of an instance. -/
def entries (offset : Address) : List DraftEntry :=
  [.register { path := "soc.unit.ch.ctrl", name := "ctrl", description := none
               offset := some offset, width := 32, access := .readWrite, resetValue := none
               fields := [] }]

/-- The register of the list. -/
def ctrl (offset : Address) : Register :=
  { name := "ctrl", offset, width := 32, access := .readWrite }

/-- An array of two instances that repeats the list. -/
def draft (offset : Address) : DraftArray DraftEntry :=
  { path := "soc.unit.ch", name := "ch", offset := none, count := 2, stride := none,
    indexStart := 0, naming := none, body := .inline (entries offset) }

/-- A register at `2 ^ 62`, whose span is rounded up to the last power of two. -/
def array : RegisterArray :=
  { name := "ch", offset := 0, descriptor := { count := 2, stride := 0x8000000000000000 }
    registers := [ctrl 0x4000000000000000] }

/-- With the register at `2 ^ 62`, the stride is `2 ^ 63` and the two instances are apart. With the
register at `2 ^ 63`, the array stops at an overflow. -/
theorem defaultStride_sound_high :
    (draft 0x4000000000000000).resolve [] 0 = .ok array ∧ array.span.toNat = 2 ^ 62 + 4 ∧
      IsLeast {m : ℕ | m.isPowerOfTwo ∧ max array.span.toNat 1 ≤ m} (2 ^ 63) ∧
      Disjoint (array.instanceSpan 0) (array.instanceSpan 1) ∧
      (draft 0x8000000000000000).resolve [] 0 =
        .error ⟨"soc.unit.ch", .strideOverflow 0x8000000000000004⟩ := by
  have hresolve : (draft 0x4000000000000000).resolve [] 0 = .ok array :=
    eq_ok_of_toOption (by decide +kernel)
  obtain ⟨-, hleast, hapart, -⟩ := DraftArray.defaultStride_sound hresolve rfl
  have hregisters : resolveTemplate 0 (entries 0x8000000000000000) =
      .ok [ctrl 0x8000000000000000] := eq_ok_of_toOption (by decide +kernel)
  refine ⟨hresolve, rfl, hleast, hapart 0 1 (by decide) (by decide), ?_⟩
  exact (DraftArray.resolve_strideOverflow_iff rfl rfl hregisters).mpr (by decide)

end HighTemplate

end RegisterMap
