import Mathlib.Data.List.Nodup
import RegisterMap.Document.Resolving
import RegisterMap.Proofs.Ensures
import RegisterMap.Proofs.Handles

/-!
# The Base Addresses of Replicated Interfaces

A replicated bus interface with a base address gets one base address for each instance, a stride
apart. Both the product and the sum saturate, and nothing checks that the last base address is in
the address space, as it is checked for arrays of registers: past the end of the space, all
instances have the last address as their base. How far a document may go is said here exactly, once
for the base addresses to be the sums that they stand for, and once for them to be different. The
second bound is wider by one instance: the first one that is clamped still has a base of its own,
unless the one before it has the last address already.

## Main results

* `DraftInterface.bases_eq` — the base addresses as clamped sums.
* `DraftInterface.bases_exact_iff`, `DraftInterface.nodup_bases_iff` — when no sum is clamped, and
  when no address is given out twice.
* `Model.interfaceBases_iff` — the base addresses of a document's interfaces.
-/

namespace RegisterMap

/-- The base address of instance `k`, as an **exact sum**. -/
def DraftInterfaceArray.exactBase (a : DraftInterfaceArray) (base : Address) (k : ℕ) : ℕ :=
  base.toNat + k * a.stride.toNat

/-- Exact bases come in order. -/
theorem DraftInterfaceArray.exactBase_mono (a : DraftInterfaceArray) (base : Address) {j k : ℕ}
    (h : j ≤ k) : a.exactBase base j ≤ a.exactBase base k :=
  Nat.add_le_add_left (Nat.mul_le_mul_right _ h) _

/-- They are **a stride apart**. -/
theorem DraftInterfaceArray.exactBase_succ (a : DraftInterfaceArray) (base : Address) (k : ℕ) :
    a.exactBase base (k + 1) = a.exactBase base k + a.stride.toNat := by
  rw [exactBase, exactBase, Nat.succ_mul, Nat.add_assoc]

/-- An instance that starts **below the last address** has another base than all later ones, clamped
or not. -/
theorem DraftInterfaceArray.clamped_lt_clamped (a : DraftInterfaceArray) {base : Address}
    (hstride : a.stride ≠ 0) {j k : ℕ} (hbelow : a.exactBase base j < UInt64.size - 1)
    (hjk : j < k) :
    min (a.exactBase base j) (UInt64.size - 1) < min (a.exactBase base k) (UInt64.size - 1) := by
  have hpos : a.stride.toNat ≠ 0 := UInt64.toNat_inj.not.mpr hstride
  have hnext := a.exactBase_succ base j
  have hle := a.exactBase_mono base (show j + 1 ≤ k from hjk)
  omega

namespace DraftInterface

variable {i : DraftInterface} {a : DraftInterfaceArray} {base : Address}

/-- The **base addresses** of the interfaces that a draft stands for. -/
def bases (i : DraftInterface) : List (Option ℕ) :=
  i.resolve.map fun interface => interface.baseAddress.map (·.toNat)

section Replicated

variable (harray : i.array = some a) (hbase : i.baseAddress = some base)

include harray hbase

/-- There is one base address for each instance, **clamped** to the last address. -/
theorem bases_eq : i.bases =
    (List.range a.count.toNat).map fun k => some (min (a.exactBase base k) (UInt64.size - 1)) := by
  have hresolve : i.resolve = (descriptor a).instances.map (i.instanceAt (descriptor a)) := by
    rw [resolve, harray]
  rw [bases, hresolve, ArrayDescriptor.instances, List.map_map, List.map_map]
  refine List.map_congr_left fun k hk => ?_
  have hindex : (UInt64.ofNat k).toNat = k :=
    ArrayDescriptor.toNat_ofNat_of_lt_count (List.mem_range.mp hk)
  have hoffset : ((descriptor a).offsetOf (.ofNat k)).toNat =
      min (k * a.stride.toNat) (UInt64.size - 1) := by
    rw [ArrayDescriptor.offsetOf, satMul_toNat, hindex]
    rfl
  have haddress : (satAdd base ((descriptor a).offsetOf (.ofNat k))).toNat =
      min (a.exactBase base k) (UInt64.size - 1) := by
    rw [satAdd_toNat, hoffset, DraftInterfaceArray.exactBase]
    omega
  simp only [Function.comp_apply, instanceAt, hbase, Option.map_some, haddress]

/-- No sum is clamped exactly when the **last instance** has its base in the address space. -/
theorem bases_exact_iff :
    i.bases = (List.range a.count.toNat).map (fun k => some (a.exactBase base k)) ↔
      a.exactBase base (a.count.toNat - 1) < UInt64.size := by
  rw [bases_eq harray hbase, List.map_inj_left]
  simp only [List.mem_range, Option.some.injEq]
  constructor
  · intro hexact
    rcases Nat.eq_zero_or_pos a.count.toNat with hnone | hsome
    · rw [hnone, DraftInterfaceArray.exactBase, Nat.zero_mul]
      exact base.toNat_lt
    · rw [← hexact _ (Nat.sub_lt hsome Nat.one_pos)]
      exact Nat.lt_of_le_of_lt (Nat.min_le_right _ _) (by decide)
  · intro hlast k hk
    have hle := a.exactBase_mono base (Nat.le_pred_of_lt hk)
    exact Nat.min_eq_left (Nat.le_pred_of_lt (Nat.lt_of_le_of_lt hle hlast))

/-- No address is given out twice exactly when the instances **but for the last one** are below the
last address, and apart. -/
theorem nodup_bases_iff : i.bases.Nodup ↔ a.count ≤ 1 ∨
    a.stride ≠ 0 ∧ a.exactBase base (a.count.toNat - 2) < UInt64.size - 1 := by
  rw [bases_eq harray hbase, List.nodup_map_iff_inj_on List.nodup_range]
  simp only [List.mem_range, Option.some.injEq]
  have hcount : a.count ≤ 1 ↔ a.count.toNat ≤ 1 := UInt64.le_iff_toNat_le
  rw [hcount]
  constructor
  · intro hinj
    by_cases hone : a.count.toNat ≤ 1
    · exact .inl hone
    · -- The last two instances have different bases.
      have hne := mt (hinj (a.count.toNat - 2) (by omega) (a.count.toNat - 1) (by omega)) (by omega)
      have hlast : a.count.toNat - 1 = a.count.toNat - 2 + 1 := by omega
      rw [hlast, a.exactBase_succ] at hne
      refine .inr ⟨fun hzero => hne ?_, by omega⟩
      rw [hzero, UInt64.toNat_zero, Nat.add_zero]
  · rintro (hone | ⟨hstride, hroom⟩) j hj k hk heq
    · omega
    · have hbelow {j : ℕ} (hj : j + 1 < a.count.toNat) :
          a.exactBase base j < UInt64.size - 1 :=
        Nat.lt_of_le_of_lt (a.exactBase_mono base (Nat.le_sub_of_add_le hj)) hroom
      rcases Nat.lt_trichotomy j k with hlt | rfl | hgt
      · have hless := a.clamped_lt_clamped hstride (hbelow (by omega)) hlt
        exact absurd heq (Nat.ne_of_lt hless)
      · rfl
      · have hless := a.clamped_lt_clamped hstride (hbelow (by omega)) hgt
        exact absurd heq (Nat.ne_of_gt hless)

end Replicated

end DraftInterface

/-- **Base addresses.** In a document that resolves, the instances of an interface with a base
address have as their bases that address and the multiples of the stride behind it, clamped to the
last address. They are the exact sums exactly when the last one is in the address space; and no two
of them are the same exactly when there is at most one instance, or the stride is not zero and all
instances but the last are below the last address. -/
theorem Model.interfaceBases_iff {options : Options} {sections : List Yaml.Value} {m : Model}
    (h : Model.ofSections options sections = .ok m) :
    ∃ d, Draft.ofSections options sections = .ok d ∧
      m.busInterfaces = d.interfaces.flatMap (·.resolve) ∧
      ∀ i ∈ d.interfaces, ∀ a base, i.array = some a → i.baseAddress = some base →
        i.bases = (List.range a.count.toNat).map
          (fun k => some (min (a.exactBase base k) (UInt64.size - 1))) ∧
        (i.bases = (List.range a.count.toNat).map (fun k => some (a.exactBase base k)) ↔
          a.exactBase base (a.count.toNat - 1) < UInt64.size) ∧
        (i.bases.Nodup ↔ a.count ≤ 1 ∨
          a.stride ≠ 0 ∧ a.exactBase base (a.count.toNat - 2) < UInt64.size - 1) := by
  obtain ⟨d, hd, hm⟩ := bind_eq_ok_iff.mp h
  obtain ⟨maps, -, hm⟩ := bind_eq_ok_iff.mp hm
  obtain rfl := pure_eq_ok_iff.mp hm
  refine ⟨d, hd, rfl, fun i _ a base harray hbase => ⟨?_, ?_, ?_⟩⟩
  · exact DraftInterface.bases_eq harray hbase
  · exact DraftInterface.bases_exact_iff harray hbase
  · exact DraftInterface.nodup_bases_iff harray hbase

/-! ### Three ports -/

namespace ThreePorts

open Yaml (Value)

/-- A document with an interface of three instances. -/
def document (base stride : Int) : List Value :=
  [.map [(.str "memoryMaps", .seq []), (.str "busInterfaces", .seq [.map
    [(.str "name", .str "port"), (.str "baseAddress", .int base), (.str "array", .map
      [(.str "count", .int 3), (.str "stride", .int stride)])]])]]

/-- The replication in the document. -/
def ports (stride : UInt64) : DraftInterfaceArray :=
  { count := 3, stride, indexStart := 0, naming := none, physicalPattern := none }

/-- The interface in the document. -/
def interface (base stride : UInt64) : DraftInterface :=
  { path := "port", name := "port", protocol := none, mode := .slave, baseAddress := some base,
    signalsStart := none, clock := none, reset := none, memoryMap := none,
    array := some (ports stride) }

/-- The document in typed form. -/
def draft (base stride : UInt64) : Draft :=
  { shape := .current, interfaces := [interface base stride] }

/-- The model of the document. -/
def model (base stride : UInt64) : Model :=
  { busInterfaces := (interface base stride).resolve }

/-- The document, drafted. -/
theorem drafted : Draft.ofSections {} (document 4096 256) = .ok (draft 4096 256) := rfl

/-- Its ports have **the bases of the sums**. -/
theorem resolved : Model.ofSections {} (document 4096 256) = .ok (model 4096 256) := rfl

/-- Three instances 256 bytes apart have three bases. -/
theorem interfaceBases_iff_ports :
    Model.ofSections {} (document 4096 256) = .ok (model 4096 256) ∧
      (interface 4096 256).bases = [some 4096, some 4352, some 4608] ∧
      (interface 4096 256).bases.Nodup := by
  obtain ⟨d, hd, -, hbases⟩ := Model.interfaceBases_iff resolved
  obtain rfl : draft 4096 256 = d := Except.ok.inj (drafted.symm.trans hd)
  obtain ⟨-, hexact, hnodup⟩ :=
    hbases (interface 4096 256) List.mem_cons_self (ports 256) 4096 rfl rfl
  exact ⟨resolved, hexact.mpr (by decide), hnodup.mpr (.inr ⟨by decide, by decide⟩)⟩

/-- The same document, half the address space up. -/
theorem drafted_high :
    Draft.ofSections {} (document 9223372036854775808 9223372036854775808) =
      .ok (draft 0x8000000000000000 0x8000000000000000) := rfl

/-- There the second port and the third **have one base**. -/
theorem resolved_high :
    Model.ofSections {} (document 9223372036854775808 9223372036854775808) =
      .ok (model 0x8000000000000000 0x8000000000000000) := rfl

/-- A document that resolves does not always keep its interfaces in the address space: from `2 ^ 63`
on, with a stride of `2 ^ 63`, the second and the third instance have the last address as their
base. -/
theorem not_all_bases_exact :
    ¬ ∀ (options : Options) (sections : List Value) (m : Model) (d : Draft),
      Model.ofSections options sections = .ok m → Draft.ofSections options sections = .ok d →
        ∀ i ∈ d.interfaces, ∀ a base, i.array = some a → i.baseAddress = some base →
          i.bases = (List.range a.count.toNat).map (fun k => some (a.exactBase base k)) ∧
            (a.stride ≠ 0 → i.bases.Nodup) := by
  intro hall
  obtain ⟨-, hdistinct⟩ := hall {} _ _ _ resolved_high drafted_high _ List.mem_cons_self
    (ports 0x8000000000000000) 0x8000000000000000 rfl rfl
  have hroom := (DraftInterface.nodup_bases_iff rfl rfl).mp (hdistinct (by decide))
  exact absurd hroom (by decide)

end ThreePorts

end RegisterMap
