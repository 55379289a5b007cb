import RegisterMap.Proofs.Discipline

/-!
# Writing Ones to Clear

A field with a clearing policy is written by its ones. Who does the clearing depends on the
register: if the register can be read, the word that is sent has the bits cleared already, and it is
meant to replace the stored one; if not, the ones are sent as they are, and the register clears its
bits by them.

An address of a memory bus that clears by the words written there does what the second kind of
register asks for. A word that was sent for the first kind has ones where bits are to be kept, so
that such an address keeps just the others.

## Main results

* `RegisterHandle.runOnMemory_clear` — the word that is sent, and what becomes of it.
* `cleared_on_write` — the stored word at an address that clears.
-/

namespace RegisterMap

/-! ### Bits -/

namespace BitField

variable {f : BitField} {value : Word}

/-- A value that fits is moved to its place as a whole. -/
theorem insert_eq_shiftUp (hvalue : value.toNat < 2 ^ f.bitWidth.toNat) :
    f.insert value = shiftUp value f.bitOffset := by
  refine word_ext fun n => ?_
  rw [bit_insert, bit_shiftUp]
  by_cases hn : n - f.bitOffset.toNat < f.bitWidth.toNat
  · simp [hn]
  · simp [hn, (toNat_lt_two_pow_iff value _).mp hvalue _ (Nat.le_of_not_lt hn)]

/-- Nothing of a field within a register is cut off at the register's width. -/
theorem insert_and_lowMask {width : UInt32} (hwithin : f.bitEnd ≤ width) :
    f.insert value &&& lowMask width = f.insert value := by
  refine word_ext fun n => ?_
  rw [bit_and, bit_lowMask]
  cases hbit : bit (f.insert value) n with
  | false => rfl
  | true =>
      have hn : n < 64 := lt_of_bit hbit
      have hlast : n < width.toNat := by
        have hend := UInt32.le_iff_toNat_le.mp hwithin
        rw [bitEnd, satAdd32_toNat, UInt32.size] at hend
        simp only [bit_insert, Bool.and_eq_true, decide_eq_true_eq] at hbit
        omega
      simp [hn, hlast]

end BitField

/-- Of a word, what is left by its ones outside `bits` is what it has in `bits`. -/
theorem clear_cleared (w bits : Word) : w &&& ~~~(w &&& ~~~bits) = w &&& bits := by
  refine word_ext fun n => ?_
  simp only [bit_and, bit_not]
  cases hbit : bit w n with
  | false => rfl
  | true => simp [lt_of_bit hbit]

/-! ### Words that are sent -/

namespace RegisterHandle

variable {h : RegisterHandle} {b : MemoryBus} {name : String} {f : BitField} {value : Word}

/-- The word that is sent to **clear** the ones of `value` in a field, given the current one. -/
def clearingWord (h : RegisterHandle) (f : BitField) (value current : Word) : Word :=
  if h.register.access.isReadable then current &&& ~~~f.insert value else f.insert value

/-- The plan for the write of a field with a clearing policy. -/
theorem planFor_clear (hclears : f.access.clearsOnOne = true) :
    h.planFor f value = .ok (.clearOnes (f.insert value) h.register.access.isReadable) := by
  unfold planFor
  cases haccess : f.access with
  | writeOneToClear | readWriteOneToClear => rfl
  | readOnly | writeOnly | readWrite =>
      rw [haccess] at hclears
      nomatch hclears

/-- A field with a clearing policy is written by **a read and a write, or a write alone**. -/
theorem perform_clear (hfound : h.register.field? name = some f)
    (hclears : f.access.clearsOnOne = true) (hvalue : value.toNat < 2 ^ f.bitWidth.toNat) :
    h.perform (.writeField name value) =
      if h.register.access.isReadable then
        h.readWord fun current =>
          h.writeWord (h.clearingWord f value current &&& h.register.wordMask)
      else h.writeWord (h.clearingWord f value 0 &&& h.register.wordMask) := by
  have hfits : f.fits value = true := (f.fits_iff value).mpr hvalue
  have hplan : h.planFieldWrite name value =
      .ok (.clearOnes (f.insert value) h.register.access.isReadable) := by
    simp [planFieldWrite, field, hfound, planFor_clear hclears, hfits, bind, Except.bind]
  rw [perform, writeField, hplan]
  cases hreadable : h.register.access.isReadable <;>
    simp [FieldWrite.readsCurrent, nextWord, FieldWrite.apply, clearingWord, hreadable]

/-- At an address without a fault, the word is sent and **stored as the bus stores words there**. -/
theorem runOnMemory_clear (hfound : h.register.field? name = some f)
    (hclears : f.access.clearsOnOne = true) (hvalue : value.toNat < 2 ^ f.bitWidth.toNat)
    (hb : h.address ∉ b.faulty) :
    ((h.perform (.writeField name value)).runOnMemory b).1 = .ok none ∧
      ((h.perform (.writeField name value)).runOnMemory b).2.words =
        b.words.set h.address (b.stored h.address
          (h.clearingWord f value (b.words h.address) &&& h.register.wordMask)) := by
  rw [perform_clear hfound hclears hvalue]
  cases hreadable : h.register.access.isReadable with
  | true =>
      rw [if_pos rfl, readWord, Script.request, Script.runOnMemory_call hb]
      dsimp only
      rw [writeWord, Script.request, Script.runOnMemory_call hb]
      exact ⟨rfl, rfl⟩
  | false =>
      have hword : h.clearingWord f value (b.words h.address) = h.clearingWord f value 0 := by
        simp [clearingWord, hreadable]
      rw [if_neg Bool.false_ne_true, writeWord, Script.request, Script.runOnMemory_call hb, hword]
      exact ⟨rfl, rfl⟩

/-- At a faulty address, the write of the field fails. -/
theorem runOnMemory_clear_of_faulty (hfound : h.register.field? name = some f)
    (hclears : f.access.clearsOnOne = true) (hvalue : value.toNat < 2 ^ f.bitWidth.toNat)
    (hb : h.address ∈ b.faulty) :
    ((h.perform (.writeField name value)).runOnMemory b).1 =
      .error (.transport (.fault h.address "injected fault")) := by
  rw [perform_clear hfound hclears hvalue]
  cases hreadable : h.register.access.isReadable with
  | true =>
      rw [if_pos rfl, readWord, Script.request, Script.runOnMemory_call_of_faulty hb]
      rfl
  | false =>
      rw [if_neg Bool.false_ne_true, writeWord, Script.request,
        Script.runOnMemory_call_of_faulty hb]
      rfl

end RegisterHandle

/-! ### Addresses that clear -/

namespace RegisterHandle

variable {h : RegisterHandle} {f : BitField} {value w : Word}

/-- By the word that is sent where the register cannot be read, **what was selected** is cleared. -/
theorem cleared_of_writeOneToClear (hpolicy : h.register.access = .writeOneToClear)
    (hwithin : f.bitEnd ≤ h.register.width) (hvalue : value.toNat < 2 ^ f.bitWidth.toNat) :
    w &&& ~~~(h.clearingWord f value w &&& h.register.wordMask) =
      w &&& ~~~shiftUp value f.bitOffset := by
  have hsent : h.clearingWord f value w = f.insert value := by
    rw [clearingWord, hpolicy]
    rfl
  rw [hsent, Register.wordMask, BitField.insert_and_lowMask hwithin,
    BitField.insert_eq_shiftUp hvalue]

/-- By the word that is sent where it can be read, **everything else** is cleared. -/
theorem cleared_of_readWriteOneToClear (hpolicy : h.register.access = .readWriteOneToClear)
    (hword : w.toNat < 2 ^ h.register.width.toNat) (hvalue : value.toNat < 2 ^ f.bitWidth.toNat) :
    w &&& ~~~(h.clearingWord f value w &&& h.register.wordMask) =
      w &&& shiftUp value f.bitOffset := by
  have hsent : h.clearingWord f value w = w &&& ~~~f.insert value := by
    rw [clearingWord, hpolicy]
    rfl
  have hkept : w &&& ~~~f.insert value &&& h.register.wordMask = w &&& ~~~f.insert value := by
    rw [Register.wordMask, UInt64.and_assoc, UInt64.and_comm (~~~_), ← UInt64.and_assoc,
      and_lowMask_of_lt hword]
  rw [hsent, hkept, clear_cleared, BitField.insert_eq_shiftUp hvalue]

end RegisterHandle

/-- **Clearing on write.** At an address that clears by the words written there, a field with a
clearing policy is written successfully if and only if the address has no fault. If the register
cannot be read, then exactly the selected bits of the stored word are cleared. If it can be read,
they are exactly the ones that are kept. -/
theorem cleared_on_write {h : RegisterHandle} {b : MemoryBus} {name : String} {f : BitField}
    {value : Word} (hclearing : h.address ∈ b.clearing)
    (hfound : h.register.field? name = some f) (hclears : f.access.clearsOnOne = true)
    (hwithin : f.bitEnd ≤ h.register.width)
    (hword : (b.words h.address).toNat < 2 ^ h.register.width.toNat)
    (hvalue : value.toNat < 2 ^ f.bitWidth.toNat) :
    let result := (h.perform (.writeField name value)).runOnMemory b
    ((∃ word, result.1 = .ok word) ↔ h.address ∉ b.faulty) ∧
      ∀ word, result.1 = .ok word →
        (h.register.access = .writeOneToClear →
          result.2.words =
            b.words.set h.address (b.words h.address &&& ~~~shiftUp value f.bitOffset)) ∧
        (h.register.access = .readWriteOneToClear →
          result.2.words =
            b.words.set h.address (b.words h.address &&& shiftUp value f.bitOffset)) := by
  intro result
  constructor
  · constructor
    · rintro ⟨word, hok⟩ hb
      nomatch hok.symm.trans (h.runOnMemory_clear_of_faulty hfound hclears hvalue hb)
    · exact fun hb => ⟨none, (h.runOnMemory_clear hfound hclears hvalue hb).1⟩
  · intro word hok
    have hb : h.address ∉ b.faulty := fun hb =>
      nomatch hok.symm.trans (h.runOnMemory_clear_of_faulty hfound hclears hvalue hb)
    have hwords := (h.runOnMemory_clear hfound hclears hvalue hb).2
    rw [MemoryBus.stored, if_pos hclearing] at hwords
    refine ⟨fun hpolicy => ?_, fun hpolicy => ?_⟩
    · rw [RegisterHandle.cleared_of_writeOneToClear hpolicy hwithin hvalue] at hwords
      exact hwords
    · rw [RegisterHandle.cleared_of_readWriteOneToClear hpolicy hword hvalue] at hwords
      exact hwords

/-! ### Interrupt flags -/

namespace InterruptFlags

/-- Flags that are cleared by their ones. -/
def flags : BitField :=
  { name := "flags", bitOffset := 4, bitWidth := 4, access := .readWriteOneToClear }

/-- A register of flags with this policy. -/
def irq (access : AccessPolicy) : RegisterHandle :=
  { path := "soc.unit.irq", address := 0,
    register := { name := "irq", offset := 0, width := 32, access, fields := [flags] } }

/-- The register clears on write, and the flags and the bits below them are set. -/
def bus : MemoryBus := { words := fun _ => 255, clearing := [0] }

/-- The first flag is cleared where the register cannot be read; where it can, nothing else is kept.
-/
theorem cleared_on_write_flags :
    0 ∈ bus.clearing ∧ flags.bitEnd ≤ 32 ∧
      (((irq .writeOneToClear).perform (.writeField "flags" 1)).runOnMemory bus).1 = .ok none ∧
      (((irq .writeOneToClear).perform (.writeField "flags" 1)).runOnMemory bus).2.words =
        bus.words.set 0 239 ∧
      (((irq .readWriteOneToClear).perform (.writeField "flags" 1)).runOnMemory bus).1 =
        .ok none ∧
      (((irq .readWriteOneToClear).perform (.writeField "flags" 1)).runOnMemory bus).2.words =
        bus.words.set 0 16 := by
  have hblind := @cleared_on_write (irq .writeOneToClear) bus "flags" flags 1 (by decide)
    (by decide) rfl (by decide) (by decide) (by decide)
  have hread := @cleared_on_write (irq .readWriteOneToClear) bus "flags" flags 1 (by decide)
    (by decide) rfl (by decide) (by decide) (by decide)
  obtain ⟨word, hblindOk⟩ := hblind.1.mpr (by decide)
  obtain ⟨word', hreadOk⟩ := hread.1.mpr (by decide)
  exact ⟨by decide, by decide, by decide, (hblind.2 word hblindOk).1 rfl, by decide,
    (hread.2 word' hreadOk).2 rfl⟩

/-- Not every register is cleared as selected on such an address. -/
theorem not_all_cleared_on_write :
    ¬ ∀ (h : RegisterHandle) (b : MemoryBus) (name : String) (f : BitField) (value : Word),
      h.register.access = .writeOneToClear ∨ h.register.access = .readWriteOneToClear →
      h.address ∈ b.clearing → h.register.field? name = some f → f.access.clearsOnOne = true →
      f.bitEnd ≤ h.register.width → (b.words h.address).toNat < 2 ^ h.register.width.toNat →
      value.toNat < 2 ^ f.bitWidth.toNat →
      ∀ word, ((h.perform (.writeField name value)).runOnMemory b).1 = .ok word →
        ((h.perform (.writeField name value)).runOnMemory b).2.words h.address =
          b.words h.address &&& ~~~shiftUp value f.bitOffset := by
  intro hall
  have hcleared := hall (irq .readWriteOneToClear) bus "flags" flags 1 (.inr rfl) (by decide)
    (by decide) rfl (by decide) (by decide) (by decide) none (by decide)
  revert hcleared
  decide

end InterruptFlags

end RegisterMap
