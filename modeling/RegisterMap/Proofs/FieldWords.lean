import Mathlib.Order.CompletePartialOrder
import Mathlib.Order.Interval.Set.Disjoint
import RegisterMap.Proofs.Bits

/-!
# Fields in Words

A field takes its value out of a word, and a value is merged into a word at the place of a field.
The laws of this module hold for every field, wherever it starts and however wide it is: a field may
have no bits, reach past the end of the word, or lie past it altogether. What it claims there does
not exist, and a value that is merged in loses the bits that would come to lie there.

The end of a field is clamped to 32 bits. This does not show in a word, because an end that is
clamped lies past the word in any case (`bit_mask_iff`). All laws are read off from single bits.

## Main results

* `BitField.bit_mask_iff` — the mask of a field, by the bits that the field occupies.
* `BitField.insert_extract` — a value that was taken out is put back.
* `BitField.extract_merge_iff` — which values are seen after they were merged in.
* `BitField.extract_merge_of_disjoint` — fields that share no bit with it see nothing of a merge.
* `BitField.word_arithmetic` — all laws of one field and of two.
-/

namespace RegisterMap.BitField

variable {f g : BitField} {v w : Word}

/-! ### One field -/

/-- The mask of a field has **the bits that the field occupies** and that exist in a word. -/
theorem bit_mask_iff {n : ℕ} : bit f.mask n = true ↔ n < 64 ∧ n ∈ f.bits := by
  rw [bit_mask, bits, Set.mem_Ico, bitEnd, satAdd32_toNat, UInt32.size]
  simp only [Bool.and_eq_true, decide_eq_true_eq]
  omega

/-- A value in its place has no bits but those of the mask. -/
theorem bit_mask_of_bit_insert {n : ℕ} (h : bit (f.insert v) n = true) : bit f.mask n = true := by
  rw [bit_insert] at h
  rw [bit_mask]
  simp only [Bool.and_eq_true, decide_eq_true_eq] at h ⊢
  exact ⟨h.1, h.2.1, h.2.2.2⟩

/-- A value in its place has **no bit outside the mask**. -/
theorem insert_and_not_mask (f : BitField) (v : Word) : f.insert v &&& ~~~f.mask = 0 := by
  refine word_ext fun n => ?_
  rw [bit_and, bit_not, bit_zero]
  cases hbit : bit (f.insert v) n with
  | false => rfl
  | true => rw [bit_mask_of_bit_insert hbit, Bool.not_true, Bool.and_false, Bool.and_false]

/-- The value of a field always **fits the field**. -/
theorem fits_extract (f : BitField) (w : Word) : f.fits (f.extract w) = true := by
  rw [fits_iff, toNat_lt_two_pow_iff]
  intro n hn
  rw [bit_extract, decide_eq_false (Nat.not_lt.mpr hn), Bool.and_false]

/-- A value that was taken out of a word and put back gives **the bits of the word** under the mask.
-/
theorem insert_extract (f : BitField) (w : Word) : f.insert (f.extract w) = w &&& f.mask := by
  refine word_ext fun n => ?_
  rw [bit_insert, bit_extract, bit_and, bit_mask]
  by_cases hstart : f.bitOffset.toNat ≤ n
  · rw [Nat.add_sub_cancel' hstart]
    cases bit w n <;> simp
  · simp [hstart]

/-! ### Merging a value into a word -/

/-- The bits of a field after a value was merged in: those of the value that the field has and that
exist at its place. -/
theorem bit_extract_merge (f : BitField) (w v : Word) (n : ℕ) :
    bit (f.extract (w &&& ~~~f.mask ||| f.insert v)) n =
      (bit v n && (decide (n < f.bitWidth.toNat) && decide (f.bitOffset.toNat + n < 64))) := by
  rw [bit_extract, bit_or, bit_and, bit_not, bit_mask, bit_insert, Nat.add_sub_cancel_left]
  by_cases hwidth : n < f.bitWidth.toNat
  · by_cases hword : f.bitOffset.toNat + n < 64
    · simp [hwidth, hword]
    · simp [hwidth, hword]
  · simp [hwidth]

/-- A value that fits the field is **seen after it was merged in** exactly when no bit of it comes
to lie past the end of the word. -/
theorem extract_merge_iff (hv : f.fits v = true) :
    f.extract (w &&& ~~~f.mask ||| f.insert v) = v ↔ v.toNat < 2 ^ (64 - f.bitOffset.toNat) := by
  rw [fits_iff, toNat_lt_two_pow_iff] at hv
  rw [toNat_lt_two_pow_iff]
  constructor
  · intro h n hn
    have hlost : ¬ f.bitOffset.toNat + n < 64 := by omega
    rw [← h, bit_extract_merge, decide_eq_false hlost, Bool.and_false, Bool.and_false]
  · intro h
    refine word_ext fun n => ?_
    rw [bit_extract_merge]
    by_cases hwidth : n < f.bitWidth.toNat
    · by_cases hword : f.bitOffset.toNat + n < 64
      · simp [hwidth, hword]
      · simp [h n (by omega)]
    · simp [hv n (Nat.le_of_not_lt hwidth)]

/-- Within a field that ends in the word, **every value that fits** is seen. -/
theorem extract_merge (hend : f.bitEnd ≤ 64) (hv : f.fits v = true) :
    f.extract (w &&& ~~~f.mask ||| f.insert v) = v := by
  have hroom : f.bitOffset.toNat + f.bitWidth.toNat ≤ 64 :=
    le_width_of_bitEnd_le hend (Nat.le_refl 64)
  refine (extract_merge_iff hv).mpr (lt_of_lt_of_le ((f.fits_iff v).mp hv) ?_)
  exact Nat.pow_le_pow_right (by decide) (by omega)

/-! ### Two fields -/

/-- Fields that share no bit have **masks that share none**. -/
theorem mask_and_mask (h : Disjoint f.bits g.bits) : f.mask &&& g.mask = 0 := by
  refine word_ext fun n => ?_
  rw [bit_and, bit_zero, Bool.and_eq_false_iff, ← Bool.not_eq_true, ← Bool.not_eq_true,
    ← not_and_or, bit_mask_iff, bit_mask_iff]
  rintro ⟨⟨-, hf⟩, -, hg⟩
  exact h.le_bot ⟨hf, hg⟩

/-- A field sees nothing of a value that is merged in for a field with **other bits**. -/
theorem extract_merge_of_disjoint (h : Disjoint f.bits g.bits) :
    g.extract (w &&& ~~~f.mask ||| f.insert v) = g.extract w := by
  -- A field sees a word through its mask.
  have hmasked : (w &&& ~~~f.mask ||| f.insert v) &&& g.mask = w &&& g.mask := by
    refine word_ext fun n => ?_
    have hmasks := congrArg (bit · n) (mask_and_mask h)
    rw [bit_and, bit_zero] at hmasks
    rw [bit_and, bit_or, bit_and, bit_not, bit_and]
    cases hg : bit g.mask n with
    | false => rw [Bool.and_false, Bool.and_false]
    | true =>
        rw [hg, Bool.and_true] at hmasks
        have hinsert : bit (f.insert v) n = false := by
          rw [← Bool.not_eq_true]
          intro hbit
          rw [bit_mask_of_bit_insert hbit] at hmasks
          nomatch hmasks
        have hlt : n < 64 := (bit_mask_iff.mp hg).1
        simp [hmasks, hinsert, hlt]
  rw [extract, hmasked, extract]

/-- **Field arithmetic.** For every field, word and value: what a field takes out of a word fits the
field, and gives the word's bits under the mask when it is put back; a value is put at no bits but
those of the mask; the values that fit are those below `2 ^ bitWidth`; and a value that fits is seen
after it was merged into a word, if the field ends in the word. A field that shares no bit with
another one shares none of its mask, and sees nothing of what is merged in for the other one. -/
theorem word_arithmetic (f : BitField) (w v : Word) :
    f.fits (f.extract w) = true ∧
    f.insert (f.extract w) = w &&& f.mask ∧
    f.insert v &&& ~~~f.mask = 0 ∧
    (f.fits v = true ↔ v.toNat < 2 ^ f.bitWidth.toNat) ∧
    (f.bitEnd ≤ 64 → f.fits v = true → f.extract (w &&& ~~~f.mask ||| f.insert v) = v) ∧
    ∀ g : BitField, Disjoint f.bits g.bits →
      f.mask &&& g.mask = 0 ∧ g.extract (w &&& ~~~f.mask ||| f.insert v) = g.extract w := by
  refine ⟨f.fits_extract w, f.insert_extract w, f.insert_and_not_mask v, f.fits_iff v, ?_, ?_⟩
  · intro hend hv
    exact extract_merge hend hv
  · intro g hdisjoint
    exact ⟨mask_and_mask hdisjoint, extract_merge_of_disjoint hdisjoint⟩

/-! ### A field at the end of the word, and one across it -/

namespace LastNibble

/-- Bits 56 to 59. -/
def nibble : BitField :=
  { name := "nibble", bitOffset := 56, bitWidth := 4, access := .readWrite }

/-- Ten bits from bit 60 on, of which four exist. -/
def across : BitField :=
  { name := "across", bitOffset := 60, bitWidth := 10, access := .readWrite }

/-- A value is merged into the first field and seen there, and the field across the end of the word
keeps the four bits that it sees. -/
theorem word_arithmetic_nibble :
    nibble.extract (0xab00000000000000 &&& ~~~nibble.mask ||| nibble.insert 5) = 5 ∧
      nibble.mask &&& across.mask = 0 ∧
      across.extract (0xab00000000000000 &&& ~~~nibble.mask ||| nibble.insert 5) = 0xa := by
  obtain ⟨-, -, -, -, hseen, hother⟩ := word_arithmetic nibble 0xab00000000000000 5
  have hdisjoint : Disjoint nibble.bits across.bits := by
    rw [bits, bits, Set.Ico_disjoint_Ico]
    decide
  obtain ⟨hmasks, hkept⟩ := hother across hdisjoint
  exact ⟨hseen (by decide) (by decide), hmasks, hkept.trans (by decide)⟩

end LastNibble

end RegisterMap.BitField
