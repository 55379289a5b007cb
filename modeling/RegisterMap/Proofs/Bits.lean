import Mathlib.Data.Nat.Bitwise
import Mathlib.Order.Interval.Set.Basic
import RegisterMap.Register

/-!
# Words, Bit by Bit

Masks, shifts and the two field operations are described by the bits of their results. A word has
64 bits; every bit from index 64 on is clear, so shifts past the end of the word need no case of
their own.

## Main results

* `word_ext`: words with the same bits are equal.
* `toNat_lt_two_pow_iff`: a word is below `2 ^ k` exactly when its bits from `k` on are clear.
* `bit_mask`, `bit_extract`, `bit_insert`: the bits of a field's mask, of its value in a word, and
  of a value put in its place.
* `and_not_lowMask_eq_zero_iff`, `fits_iff`: the range checks, as inequalities.
* `and_lowMask_lt`, `and_lowMask_of_lt`: what a mask does to words of its range and to all others.
* `extract_congr`: a field sees nothing but its own bits.
* `extract_insert_self`, `extract_clear_self`, `extract_and_lowMask`: what a field sees of a word
  that was put together for it.
-/

namespace RegisterMap

/-- The **bit** of a word at an index. -/
def bit (w : Word) (n : ℕ) : Bool := w.toNat.testBit n

/-- There are no bits past the end of the word. -/
theorem bit_of_le (w : Word) {n : ℕ} (h : 64 ≤ n) : bit w n = false :=
  Nat.testBit_lt_two_pow (lt_of_lt_of_le w.toNat_lt (Nat.pow_le_pow_right (by decide) h))

/-- A bit that is set is one of the 64. -/
theorem lt_of_bit {w : Word} {n : ℕ} (h : bit w n = true) : n < 64 := by
  by_contra hn
  rw [bit_of_le w (by omega)] at h
  cases h

/-- **Extensionality**: a word is determined by its bits. -/
theorem word_ext {a b : Word} (h : ∀ n, bit a n = bit b n) : a = b :=
  UInt64.toNat_inj.mp (Nat.eq_of_testBit_eq h)

/-- A word is below `2 ^ k` exactly when its bits from `k` on are clear. -/
theorem toNat_lt_two_pow_iff (w : Word) (k : ℕ) :
    w.toNat < 2 ^ k ↔ ∀ n, k ≤ n → bit w n = false := by
  constructor
  · intro h n hn
    exact Nat.testBit_lt_two_pow (lt_of_lt_of_le h (Nat.pow_le_pow_right (by decide) hn))
  · intro h
    exact Nat.lt_pow_two_of_testBit w.toNat h

/-! ### Operations on words -/

/-- Zero has no bit set. -/
@[simp] theorem bit_zero (n : ℕ) : bit 0 n = false := by
  simp [bit]

/-- The bits of a conjunction are set in **both words**. -/
@[simp] theorem bit_and (a b : Word) (n : ℕ) : bit (a &&& b) n = (bit a n && bit b n) := by
  simp [bit]

/-- The bits of a disjunction are set in **one of the words**. -/
@[simp] theorem bit_or (a b : Word) (n : ℕ) : bit (a ||| b) n = (bit a n || bit b n) := by
  simp [bit]

/-- The bits of a complement are those of the 64 that are not set. -/
@[simp] theorem bit_not (a : Word) (n : ℕ) : bit (~~~a) n = (decide (n < 64) && !bit a n) := by
  simp only [bit, ← UInt64.toNat_toBitVec, UInt64.toBitVec_not, BitVec.testBit_toNat,
    BitVec.getLsbD_not]

/-- A mask of low bits has **as many as it says**, up to 64. -/
@[simp] theorem bit_lowMask (k : UInt32) (n : ℕ) :
    bit (lowMask k) n = (decide (n < k.toNat) && decide (n < 64)) := by
  rw [bit, lowMask_toNat, Nat.one_shiftLeft, Nat.testBit_two_pow_sub_one, ← Bool.decide_and]
  congr 1
  simp only [Nat.lt_min]

/-- Shifting up moves bits to **higher places**, and drops those past the 64. -/
@[simp] theorem bit_shiftUp (w : Word) (k : UInt32) (n : ℕ) :
    bit (shiftUp w k) n = (decide (n < 64) && (decide (k.toNat ≤ n) && bit w (n - k.toNat))) := by
  have hsize : UInt64.size = 2 ^ 64 := rfl
  rw [bit, shiftUp_toNat, hsize, Nat.testBit_mod_two_pow, Nat.testBit_shiftLeft]
  rfl

/-- Shifting down moves bits to **lower places**. -/
@[simp] theorem bit_shiftDown (w : Word) (k : UInt32) (n : ℕ) :
    bit (shiftDown w k) n = bit w (k.toNat + n) := by
  rw [bit, shiftDown_toNat, Nat.testBit_shiftRight]
  rfl

/-- A word has no bits outside a low mask exactly when it is in its range. -/
theorem and_not_lowMask_eq_zero_iff (w : Word) (k : UInt32) :
    w &&& ~~~lowMask k = 0 ↔ w.toNat < 2 ^ k.toNat := by
  rw [toNat_lt_two_pow_iff]
  constructor
  · intro h n hn
    by_contra hbit
    rw [Bool.not_eq_false] at hbit
    have h0 := congrArg (bit · n) h
    simp [hbit, lt_of_bit hbit] at h0
    omega
  · intro h
    refine word_ext fun n => ?_
    by_cases hn : k.toNat ≤ n
    · simp [h n hn]
    · by_cases h64 : n < 64
      · simp [h64, Nat.lt_of_not_le hn]
      · simp [h64]

/-- A word that is in range is not changed by the mask of the range. -/
theorem and_lowMask_of_lt {w : Word} {width : UInt32} (hw : w.toNat < 2 ^ width.toNat) :
    w &&& lowMask width = w := by
  refine word_ext fun n => ?_
  rw [bit_and, bit_lowMask]
  cases hbit : bit w n with
  | false => rfl
  | true =>
      have hlast : n < width.toNat := by
        by_contra hle
        rw [(toNat_lt_two_pow_iff w _).mp hw n (Nat.le_of_not_lt hle)] at hbit
        nomatch hbit
      simp [lt_of_bit hbit, hlast]

/-- A word under the mask of a range is in that range. -/
theorem and_lowMask_lt (w : Word) (width : UInt32) :
    (w &&& lowMask width).toNat < 2 ^ width.toNat := by
  rw [← and_not_lowMask_eq_zero_iff, UInt64.and_assoc]
  simp

/-! ### Fields -/

namespace BitField

/-- The mask of a field has the bits of the field that exist. -/
@[simp] theorem bit_mask (f : BitField) (n : ℕ) :
    bit f.mask n = (decide (n < 64) && (decide (f.bitOffset.toNat ≤ n) &&
      decide (n - f.bitOffset.toNat < f.bitWidth.toNat))) := by
  rw [mask, valueMask, bit_shiftUp, bit_lowMask]
  by_cases h : n < 64
  · simp [h, Nat.lt_of_le_of_lt (Nat.sub_le n f.bitOffset.toNat) h]
  · simp [h]

/-- The value of a field has the word's bits from the field's offset on, as many as it is wide. -/
@[simp] theorem bit_extract (f : BitField) (w : Word) (n : ℕ) :
    bit (f.extract w) n = (bit w (f.bitOffset.toNat + n) && decide (n < f.bitWidth.toNat)) := by
  rw [extract, bit_shiftDown, bit_and, bit_mask]
  by_cases h : bit w (f.bitOffset.toNat + n) = true
  · simp [h, lt_of_bit h]
  · simp [h]

/-- A value in its place has its bits moved up to the field's offset, as many as the field has. -/
@[simp] theorem bit_insert (f : BitField) (v : Word) (n : ℕ) :
    bit (f.insert v) n = (decide (n < 64) && (decide (f.bitOffset.toNat ≤ n) &&
      (bit v (n - f.bitOffset.toNat) &&
        decide (n - f.bitOffset.toNat < f.bitWidth.toNat)))) := by
  rw [insert, valueMask, bit_shiftUp, bit_and, bit_lowMask]
  by_cases h : n < 64
  · simp [h, Nat.lt_of_le_of_lt (Nat.sub_le n f.bitOffset.toNat) h]
  · simp [h]

/-- The values that fit a field are those below `2 ^ bitWidth`. -/
theorem fits_iff (f : BitField) (v : Word) : f.fits v = true ↔ v.toNat < 2 ^ f.bitWidth.toNat := by
  rw [fits, valueMask, beq_iff_eq, and_not_lowMask_eq_zero_iff]

end BitField

/-! ### What a field sees -/

namespace BitField

/-- The **bits** that a field occupies. -/
def bits (f : BitField) : Set ℕ := Set.Ico f.bitOffset.toNat f.bitEnd.toNat

variable {f : BitField} {v w : Word}

/-- The field's bits are all **in the word**. -/
def InWord (f : BitField) : Prop := f.bitOffset.toNat + f.bitWidth.toNat ≤ 64

/-- A field that ends within a register does so **without overflow**. -/
theorem le_width_of_bitEnd_le {width : UInt32} (h : f.bitEnd ≤ width) (hwidth : width.toNat ≤ 64) :
    f.bitOffset.toNat + f.bitWidth.toNat ≤ width.toNat := by
  have hend := UInt32.le_iff_toNat_le.mp h
  rw [bitEnd, satAdd32_toNat, UInt32.size] at hend
  omega

/-- The bits of a field start at its offset, and are as many as its width. -/
theorem mem_bits (hf : f.InWord) {n : ℕ} :
    n ∈ f.bits ↔ f.bitOffset.toNat ≤ n ∧ n < f.bitOffset.toNat + f.bitWidth.toNat := by
  rw [InWord] at hf
  rw [bits, Set.mem_Ico, bitEnd, satAdd32_toNat, UInt32.size]
  omega

/-- A field sees nothing but its own bits. -/
theorem extract_congr (hf : f.InWord) (h : ∀ n ∈ f.bits, bit v n = bit w n) :
    f.extract v = f.extract w := by
  refine word_ext fun n => ?_
  rw [bit_extract, bit_extract]
  by_cases hn : n < f.bitWidth.toNat
  · rw [h _ ((mem_bits hf).mpr ⟨by omega, by omega⟩)]
  · simp [hn]

/-- The mask of a field has the field's bits. -/
theorem bit_mask_of_mem (hf : f.InWord) {n : ℕ} (hn : n ∈ f.bits) : bit f.mask n = true := by
  rw [mem_bits hf] at hn
  rw [InWord] at hf
  rw [bit_mask]
  simp
  omega

/-- It has no others. -/
theorem bit_mask_of_not_mem (hf : f.InWord) {n : ℕ} (hn : n ∉ f.bits) : bit f.mask n = false := by
  rw [mem_bits hf] at hn
  rw [bit_mask]
  simp
  omega

/-- A value put in its place has no bit outside the field. -/
theorem bit_insert_of_not_mem (hf : f.InWord) {n : ℕ} (hn : n ∉ f.bits) :
    bit (f.insert v) n = false := by
  rw [mem_bits hf] at hn
  rw [bit_insert]
  simp
  omega

/-- The bits of a field are bits of a word. -/
theorem lt_of_mem_bits (hf : f.InWord) {n : ℕ} (hn : n ∈ f.bits) : n < 64 := by
  rw [mem_bits hf] at hn
  rw [InWord] at hf
  omega

/-- A value that was put in the place of a field is **seen by that field**. -/
theorem extract_insert_self (hf : f.InWord) (hv : v.toNat < 2 ^ f.bitWidth.toNat) :
    f.extract (f.insert v) = v := by
  refine word_ext fun n => ?_
  rw [InWord] at hf
  rw [bit_extract, bit_insert]
  by_cases hn : n < f.bitWidth.toNat
  · have hlt : f.bitOffset.toNat + n < 64 := by omega
    simp [hn, hlt]
  · simp [hn, (toNat_lt_two_pow_iff v _).mp hv n (by omega)]

/-- Ones that are cleared at the place of a field are **cleared in its value**. -/
theorem extract_clear_self (hf : f.InWord) :
    f.extract (w &&& ~~~f.insert v) = f.extract w &&& ~~~v := by
  refine word_ext fun n => ?_
  rw [InWord] at hf
  rw [bit_extract, bit_and, bit_and, bit_not, bit_not, bit_insert, bit_extract]
  by_cases hn : n < f.bitWidth.toNat
  · have hlt : f.bitOffset.toNat + n < 64 := by omega
    have hlt' : n < 64 := by omega
    simp [hn, hlt, hlt']
  · simp [hn]

/-- Bits past the end of the register are of no concern to a field that ends before. -/
theorem extract_and_lowMask {width : UInt32} (hf : f.InWord)
    (hwidth : f.bitOffset.toNat + f.bitWidth.toNat ≤ width.toNat) :
    f.extract (w &&& lowMask width) = f.extract w := by
  refine extract_congr hf fun n hn => ?_
  have hlt := lt_of_mem_bits hf hn
  rw [mem_bits hf] at hn
  rw [bit_and, bit_lowMask]
  have hlow : n < width.toNat := by omega
  simp [hlow, hlt]

/-- In a word of zeros every field is zero. -/
theorem extract_zero (f : BitField) : f.extract 0 = 0 := by
  refine word_ext fun n => ?_
  simp

end BitField

end RegisterMap
