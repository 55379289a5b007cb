/-!
# Words, Offsets and Bit Counts

Bus words, byte offsets and byte addresses are 64 bits wide; bit positions and bit widths inside a
register are 32 bits wide. Sums and products of document values **saturate**: a result past the
largest representable value is that largest value, never a wrapped small one.

## Main results

* `nat64?_eq_some_iff`, `nat32?_eq_some_iff`: which word a number is, if it is one.
* `satAdd_toNat`, `satMul_toNat`, `satAdd32_toNat`: what saturation computes, as numbers.
* `lowMask_toNat`: the mask of the low `w` bits is one bit shifted up by `w`, at most by 64, less
  one.
* `shiftUp_toNat`, `shiftDown_toNat`: shifts past the word's end leave no bit behind.
-/

namespace RegisterMap

/-- A **bus word**, right-aligned in 64 bits whatever the width of the register it belongs to. -/
abbrev Word := UInt64

/-- A byte **offset or address** in a 64-bit address space. -/
abbrev Address := UInt64

/-! ### Ranges -/

/-- A number as **64 bits**, if it fits. -/
def nat64? (n : Int) : Option UInt64 :=
  if 0 ≤ n ∧ n.toNat < UInt64.size then some (.ofNat n.toNat) else none

/-- A number as **32 bits**, if it fits. -/
def nat32? (n : Int) : Option UInt32 :=
  if 0 ≤ n ∧ n.toNat < UInt32.size then some (.ofNat n.toNat) else none

/-- A number fits 64 bits exactly if it is **the value of a word**, and then it is that word. -/
theorem nat64?_eq_some_iff {n : Int} {w : UInt64} : nat64? n = some w ↔ (w.toNat : Int) = n := by
  have hw : w.toNat < UInt64.size := w.toNat_lt
  unfold nat64?
  constructor
  · split
    · next h =>
      rintro ⟨⟩
      rw [UInt64.toNat_ofNat_of_lt' h.2, Int.toNat_of_nonneg h.1]
    · nofun
  · rintro rfl
    rw [if_pos ⟨Int.natCast_nonneg _, hw⟩, Int.toNat_natCast, UInt64.ofNat_toNat]

/-- So it is with 32 bits. -/
theorem nat32?_eq_some_iff {n : Int} {w : UInt32} : nat32? n = some w ↔ (w.toNat : Int) = n := by
  have hw : w.toNat < UInt32.size := w.toNat_lt
  unfold nat32?
  constructor
  · split
    · next h =>
      rintro ⟨⟩
      rw [UInt32.toNat_ofNat_of_lt' h.2, Int.toNat_of_nonneg h.1]
    · nofun
  · rintro rfl
    rw [if_pos ⟨Int.natCast_nonneg _, hw⟩, Int.toNat_natCast, UInt32.ofNat_toNat]

/-! ### Saturating arithmetic -/

/-- **Saturating sum** of two offsets. -/
def satAdd (a b : UInt64) : UInt64 := .ofNat (min (a.toNat + b.toNat) (UInt64.size - 1))

/-- **Saturating product** of a count and a stride. -/
def satMul (a b : UInt64) : UInt64 := .ofNat (min (a.toNat * b.toNat) (UInt64.size - 1))

/-- **Saturating sum** of two bit positions. -/
def satAdd32 (a b : UInt32) : UInt32 := .ofNat (min (a.toNat + b.toNat) (UInt32.size - 1))

/-- A saturating sum is the sum, **at most the last number of 64 bits**. -/
theorem satAdd_toNat (a b : UInt64) :
    (satAdd a b).toNat = min (a.toNat + b.toNat) (UInt64.size - 1) := by
  unfold satAdd UInt64.size
  rw [UInt64.toNat_ofNat', Nat.mod_eq_of_lt]
  omega

/-- So is a saturating product. -/
theorem satMul_toNat (a b : UInt64) :
    (satMul a b).toNat = min (a.toNat * b.toNat) (UInt64.size - 1) := by
  unfold satMul UInt64.size
  rw [UInt64.toNat_ofNat', Nat.mod_eq_of_lt]
  omega

/-- A saturating sum of bit positions is at most the last number of 32 bits. -/
theorem satAdd32_toNat (a b : UInt32) :
    (satAdd32 a b).toNat = min (a.toNat + b.toNat) (UInt32.size - 1) := by
  unfold satAdd32 UInt32.size
  rw [UInt32.toNat_ofNat', Nat.mod_eq_of_lt]
  omega

/-! ### Masks and shifts -/

/-- The word whose low `width` bits are set; every bit from width 64 on. -/
def lowMask (width : UInt32) : Word := .ofNat (1 <<< min width.toNat 64 - 1)

/-- Shift towards the high end; nothing is left once the shift passes the word's end. -/
def shiftUp (word : Word) (bits : UInt32) : Word :=
  if bits < 64 then word <<< bits.toUInt64 else 0

/-- Shift towards the low end; nothing is left once the shift passes the word's end. -/
def shiftDown (word : Word) (bits : UInt32) : Word :=
  if bits < 64 then word >>> bits.toUInt64 else 0

/-- A mask of low bits is one less than **the power of two above them**. -/
theorem lowMask_toNat (width : UInt32) :
    (lowMask width).toNat = 1 <<< min width.toNat 64 - 1 := by
  unfold lowMask
  rw [Nat.one_shiftLeft]
  have h : 2 ^ min width.toNat 64 ≤ 2 ^ 64 := Nat.pow_le_pow_right (by decide) (by omega)
  rw [UInt64.toNat_ofNat', Nat.mod_eq_of_lt]
  omega

/-- Shifting up multiplies, **and drops what leaves the word**. -/
theorem shiftUp_toNat (word : Word) (bits : UInt32) :
    (shiftUp word bits).toNat = word.toNat <<< bits.toNat % UInt64.size := by
  unfold shiftUp UInt64.size
  split
  · next h =>
    have h' : bits.toNat < 64 := by simpa [UInt32.lt_iff_toNat_lt] using h
    simp [UInt64.toNat_shiftLeft, Nat.mod_eq_of_lt h']
  · next h =>
    have h' : 64 ≤ bits.toNat := by simpa [UInt32.lt_iff_toNat_lt] using h
    obtain ⟨k, hk⟩ := Nat.exists_eq_add_of_le h'
    rw [hk, Nat.shiftLeft_eq, Nat.pow_add, ← Nat.mul_assoc, Nat.mul_right_comm,
      Nat.mul_mod_left]
    rfl

/-- Shifting down divides, by however many bits. -/
theorem shiftDown_toNat (word : Word) (bits : UInt32) :
    (shiftDown word bits).toNat = word.toNat >>> bits.toNat := by
  unfold shiftDown
  split
  · next h =>
    have h' : bits.toNat < 64 := by simpa [UInt32.lt_iff_toNat_lt] using h
    simp [UInt64.toNat_shiftRight, Nat.mod_eq_of_lt h']
  · next h =>
    have h' : 64 ≤ bits.toNat := by simpa [UInt32.lt_iff_toNat_lt] using h
    have hw : word.toNat < 2 ^ 64 := word.toNat_lt
    have hle : 2 ^ 64 ≤ 2 ^ bits.toNat := Nat.pow_le_pow_right (by decide) h'
    rw [Nat.shiftRight_eq_div_pow, Nat.div_eq_of_lt (by omega)]
    rfl

/-! ### Powers of two -/

/-- The exponent of the least power of two that is at least `n`. -/
def ceilLog2 (n : Nat) : Nat := if n ≤ 1 then 0 else (n - 1).log2 + 1

/-- The least **power of two** that is at least `n`, if it fits in 64 bits. -/
def ceilPowerOfTwo? (n : UInt64) : Option UInt64 := nat64? (1 <<< ceilLog2 n.toNat : Nat)

end RegisterMap
