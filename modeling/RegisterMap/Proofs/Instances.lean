import RegisterMap.Proofs.Layout

/-!
# The Instances of One Array

An array that resolves ends within the address space, and this bounds every sum that places one of
its registers: an instance is its template, moved by a distance that is not clamped anywhere. So two
registers of one instance share bytes only if their templates do, and two registers of different
instances share none as soon as the stride holds an instance.

## Main results

* `RegisterArray.pairwise_expand_iff` — what holds of all pairs of registers of an array.
* `RegisterArray.FitsAddressSpace.materialize_endOffset` — ends of registers are not clamped.
* `RegisterArray.FitsAddressSpace.endOffset_le_offset` — an instance ends before a later one starts.
* `DraftArray.instances_apart` — the registers of an array are apart, and no check reports two of
  them.
-/

namespace RegisterMap

/-! ### Pairs of instances -/

/-- The instance numbers are listed **in order**. -/
theorem ArrayDescriptor.pairwise_instances_iff {d : ArrayDescriptor}
    {R : UInt64 → UInt64 → Prop} :
    d.instances.Pairwise R ↔ ∀ i j, i < j → j < d.count → R i j := by
  rw [instances, List.pairwise_map]
  constructor
  · intro h i j hij hj
    have hrel := List.pairwise_iff_getElem.mp h i.toNat j.toNat
    simp only [List.length_range, List.getElem_range, UInt64.ofNat_toNat] at hrel
    rw [UInt64.lt_iff_toNat_lt] at hij hj
    exact hrel (Nat.lt_trans hij hj) hj hij
  · intro h
    refine List.pairwise_lt_range.imp_of_mem fun {m n} hm hn hmn => ?_
    have hfirst := toNat_ofNat_of_lt_count (List.mem_range.mp hm)
    have hsecond := toNat_ofNat_of_lt_count (List.mem_range.mp hn)
    refine h _ _ ?_ ?_
    · rwa [UInt64.lt_iff_toNat_lt, hfirst, hsecond]
    · rwa [UInt64.lt_iff_toNat_lt, hsecond, ← List.mem_range]

namespace RegisterArray

variable {a : RegisterArray}

/-- The array has **room for its instances**: there is at most one, or the stride holds one. -/
def Spaced (a : RegisterArray) : Prop := a.descriptor.count ≤ 1 ∨ a.span ≤ a.descriptor.stride

/-- The byte at which instance `i` starts, as an exact sum. -/
def instanceStart (a : RegisterArray) (i : UInt64) : ℕ :=
  a.offset.toNat + i.toNat * a.descriptor.stride.toNat

/-- Where there is room, an instance with its whole span **ends before a later one** starts. -/
theorem Spaced.instanceStart_add_span_le (h : a.Spaced) {i j : UInt64} (hij : i < j)
    (hj : j < a.descriptor.count) : a.instanceStart i + a.span.toNat ≤ a.instanceStart j := by
  have hlt : i.toNat < j.toNat := UInt64.lt_iff_toNat_lt.mp hij
  have hstride : a.span.toNat ≤ a.descriptor.stride.toNat := by
    rcases h with hcount | hspan
    · rw [UInt64.le_iff_toNat_le, UInt64.toNat_one] at hcount
      rw [UInt64.lt_iff_toNat_lt] at hj
      omega
    · exact UInt64.le_iff_toNat_le.mp hspan
  have hmoved : (i.toNat + 1) * a.descriptor.stride.toNat ≤
      j.toNat * a.descriptor.stride.toNat := Nat.mul_le_mul_right _ hlt
  rw [instanceStart, instanceStart]
  rw [Nat.succ_mul] at hmoved
  omega

/-! ### Pairs of registers -/

/-- What relates all registers of an array in order relates those of **each instance**, and those of
an instance to those of every **later** one. -/
theorem pairwise_expand_iff {R : Register → Register → Prop} :
    a.expand.Pairwise R ↔
      (∀ i < a.descriptor.count,
        a.registers.Pairwise fun t u => R (a.materialize i t) (a.materialize i u)) ∧
      ∀ i j, i < j → j < a.descriptor.count → ∀ t ∈ a.registers, ∀ u ∈ a.registers,
        R (a.materialize i t) (a.materialize j u) := by
  have hinstance (i : UInt64) (hi : i < a.descriptor.count) :
      (a.instance? i).getD [] = a.registers.map (a.materialize i) := by
    rw [instance?, if_pos (show a.descriptor.contains i = true from decide_eq_true hi),
      Option.getD_some]
  rw [expand, List.pairwise_flatMap, ArrayDescriptor.pairwise_instances_iff]
  refine and_congr (forall_congr' fun i => ?_) ?_
  · rw [ArrayDescriptor.mem_instances_iff, ArrayDescriptor.contains, decide_eq_true_eq]
    refine forall_congr' fun hi => ?_
    rw [hinstance i hi, List.pairwise_map]
  · refine forall₂_congr fun i j => forall₂_congr fun hij hj => ?_
    rw [hinstance i (UInt64.lt_trans hij hj), hinstance j hj, List.forall_mem_map]
    exact forall₂_congr fun t _ => List.forall_mem_map

/-! ### Places of registers -/

namespace FitsAddressSpace

variable {i j : UInt64} {t u : Register} (h : a.FitsAddressSpace)

include h

/-- Every instance ends **within the address space**. -/
theorem instanceStart_add_span_lt (hi : i < a.descriptor.count) :
    a.instanceStart i + a.span.toNat < UInt64.size := by
  have hroom := h.room hi
  rw [instanceStart]
  omega

/-- The end of a register is **moved** as its offset is. A template that reaches the last address
fits only where it is not moved at all. -/
theorem materialize_endOffset (hi : i < a.descriptor.count) (ht : t ∈ a.registers) :
    (a.materialize i t).endOffset.toNat = a.instanceStart i + t.endOffset.toNat := by
  have hroom := h.instanceStart_add_span_lt hi
  have hspan : t.endOffset.toNat ≤ a.span.toNat :=
    UInt64.le_iff_toNat_le.mp (endOffset_le_spanOf ht)
  have hoffset : (a.materialize i t).offset.toNat = a.instanceStart i + t.offset.toNat :=
    h.materialize_offset hi ht
  have hsize : (a.materialize i t).sizeBytes = t.sizeBytes := rfl
  rw [Register.endOffset, satAdd_toNat] at hspan
  rw [Register.endOffset, Register.endOffset, satAdd_toNat, satAdd_toNat, hsize, hoffset]
  omega

/-- The bytes of a register are those of its template, **moved to the start of the instance**. -/
theorem mem_materialize_bytes (hi : i < a.descriptor.count) (ht : t ∈ a.registers) {x : ℕ} :
    x ∈ (a.materialize i t).bytes ↔ ∃ y ∈ t.bytes, x = a.instanceStart i + y := by
  have hoffset : (a.materialize i t).offset.toNat = a.instanceStart i + t.offset.toNat :=
    h.materialize_offset hi ht
  simp only [Register.bytes, Set.mem_Ico, hoffset, h.materialize_endOffset hi ht]
  constructor
  · rintro ⟨hle, hlt⟩
    exact ⟨x - a.instanceStart i, by omega, by omega⟩
  · rintro ⟨y, hy, rfl⟩
    omega

/-- Registers of one instance share bytes only if their **templates** do. -/
theorem disjoint_materialize (hi : i < a.descriptor.count) (ht : t ∈ a.registers)
    (hu : u ∈ a.registers) (hapart : Disjoint t.bytes u.bytes) :
    Disjoint (a.materialize i t).bytes (a.materialize i u).bytes := by
  refine Set.disjoint_left.mpr fun x hx hx' => ?_
  obtain ⟨y, hy, rfl⟩ := (h.mem_materialize_bytes hi ht).mp hx
  obtain ⟨z, hz, heq⟩ := (h.mem_materialize_bytes hi hu).mp hx'
  obtain rfl : y = z := by omega
  exact Set.disjoint_left.mp hapart hy hz

/-- The registers of an instance end **before those of a later one** start. -/
theorem endOffset_le_offset (hspaced : a.Spaced) (hij : i < j) (hj : j < a.descriptor.count)
    (ht : t ∈ a.registers) (hu : u ∈ a.registers) :
    (a.materialize i t).endOffset ≤ (a.materialize j u).offset := by
  have hapart := hspaced.instanceStart_add_span_le hij hj
  have hspan : t.endOffset.toNat ≤ a.span.toNat :=
    UInt64.le_iff_toNat_le.mp (endOffset_le_spanOf ht)
  have hoffset : (a.materialize j u).offset.toNat = a.instanceStart j + u.offset.toNat :=
    h.materialize_offset hj hu
  rw [UInt64.le_iff_toNat_le, hoffset, h.materialize_endOffset (UInt64.lt_trans hij hj) ht]
  omega

/-- **The registers of an array are apart** if its template registers are. -/
theorem pairwise_disjoint (hspaced : a.Spaced)
    (hapart : a.registers.Pairwise fun t u => Disjoint t.bytes u.bytes) :
    a.expand.Pairwise fun r s => Disjoint r.bytes s.bytes := by
  refine pairwise_expand_iff.mpr ⟨fun i hi => ?_, fun i j hij hj t ht u hu => ?_⟩
  · exact hapart.imp_of_mem fun ht hu htu => h.disjoint_materialize hi ht hu htu
  · have hbehind := UInt64.le_iff_toNat_le.mp (h.endOffset_le_offset hspaced hij hj ht hu)
    rw [Register.bytes, Register.bytes, Set.Ico_disjoint_Ico]
    omega

end FitsAddressSpace

end RegisterArray

/-! ### Reports -/

/-- The check for overlaps reports the **clashes of the registers** of the block. -/
theorem BlockEntry.lists_clashes (e : BlockEntry) :
    Lists (ClashReport (·.offset) (·.endOffset) (·.name) .registerOverlap e.path e.block.registers)
      e.registerOverlaps :=
  lists_clashReports fun _ => ⟨rfl, rfl, rfl⟩

/-- The items of a list that stand between two others are not reported to overlap if they are
pairwise disjoint. -/
theorem not_clash_of_pairwise {α : Type} {start stop : α → UInt64} {front items back : List α}
    (h : items.Pairwise fun a b =>
      Disjoint (spanned start stop a).points (spanned start stop b).points) {p : ℕ × ℕ} {q : α × α}
    (hclash : Clash start stop (front ++ items ++ back) p q) :
    ¬ (p.1 ∈ Set.Ico front.length (front.length + items.length) ∧
      p.2 ∈ Set.Ico front.length (front.length + items.length)) := by
  rintro ⟨⟨hle₁, hlt₁⟩, hle₂, hlt₂⟩
  have hitem {n : ℕ} (hle : front.length ≤ n) (hlt : n < front.length + items.length) :
      (front ++ items ++ back)[n]? = items[n - front.length]? := by
    rw [List.append_assoc, List.getElem?_append_right hle, List.getElem?_append_left (by omega)]
  have hfirst := hclash.first
  have hsecond := hclash.second
  rw [hitem hle₁ hlt₁] at hfirst
  rw [hitem hle₂ hlt₂] at hsecond
  by_cases hne : p.1 = p.2
  · have heq : q.1 = q.2 := by
      rw [hne] at hfirst
      exact Option.some.inj (hfirst.symm.trans hsecond)
    have hprec := hclash.precedes
    rw [heq, hne] at hprec
    exact hprec.asymm hprec
  · refine hclash.share (disjoint_of_pairwise (s := fun a => (spanned start stop a).points) h
      hfirst hsecond ?_)
    omega

/-- **The instances of an array are apart.** In an array that resolves, with one instance or a
stride that holds one, the registers of all instances share no bytes if the template's share none.
Whatever else a block lists in front of them and behind them, the check for overlaps reports its
clashes exactly, and none of them is between two registers of the array. -/
theorem DraftArray.instances_apart {templates : List DraftTemplate} {d : DraftArray DraftEntry}
    {cursor : Address} {a : RegisterArray} (hresolve : d.resolve templates cursor = .ok a)
    (hspaced : a.descriptor.count ≤ 1 ∨ a.span ≤ a.descriptor.stride)
    (hapart : a.registers.Pairwise fun t u => Disjoint t.bytes u.bytes) :
    (a.expand.Pairwise fun r s => Disjoint r.bytes s.bytes) ∧
      ∀ (e : BlockEntry) (front back : List Register),
        e.block.registers = front ++ a.expand ++ back →
        Lists (fun p v =>
          ClashReport (·.offset) (·.endOffset) (·.name) .registerOverlap e.path e.block.registers
            p v ∧
          ¬ (p.1 ∈ Set.Ico front.length (front.length + a.expand.length) ∧
            p.2 ∈ Set.Ico front.length (front.length + a.expand.length))) e.registerOverlaps := by
  have hfits : a.FitsAddressSpace := (d.resolve_fits templates cursor a hresolve).2
  have hexpand := hfits.pairwise_disjoint hspaced hapart
  refine ⟨hexpand, fun e front back hregisters => ?_⟩
  refine e.lists_clashes.congr fun p v => and_iff_left_of_imp ?_
  rintro ⟨q, hclash, -⟩
  rw [hregisters] at hclash
  exact not_clash_of_pairwise hexpand hclash

/-! ### Channels and a register among them -/

namespace ThreeChannels

/-- A register of four bytes in a document. -/
def registerAt (name : String) (offset : Option Address) : DraftRegister :=
  { path := name, name, description := none, offset, width := 32, access := .readWrite,
    resetValue := none, fields := [] }

/-- Three channels of two registers, with a gap between the registers and one between channels. -/
def draft : DraftArray DraftEntry :=
  { path := "ch", name := "ch", offset := none, count := 3, stride := some 16, indexStart := 0,
    naming := none,
    body := .inline [.register (registerAt "ctrl" none), .register (registerAt "data" (some 8))] }

/-- A register of four bytes. -/
def register (name : String) (offset : Address) : Register :=
  { name, offset, width := 32, access := .readWrite }

/-- The channels, placed behind a first register. -/
def channels : RegisterArray :=
  { name := "ch", offset := 4, descriptor := { count := 3, stride := 16 },
    registers := [register "ctrl" 0, register "data" 8] }

/-- A block with the channels between two registers, of which the last one is where the second
channel starts. -/
def block : AddressBlock :=
  { name := "unit", baseOffset := 0, size := 64
    registers := [register "id" 0] ++ channels.expand ++ [register "late" 20]
    arrays := [channels] }

/-- The block, in a map. -/
def entry : BlockEntry := { map := { name := "soc", blocks := [block] }, block }

/-- The registers of the channels are apart, and the only reports about the block involve a register
that is not one of theirs. -/
theorem instances_apart_channels :
    draft.resolve [] 4 = .ok channels ∧
      (channels.expand.Pairwise fun r s => Disjoint r.bytes s.bytes) ∧
      Lists (fun p v =>
        ClashReport (·.offset) (·.endOffset) (·.name) .registerOverlap "soc.unit" block.registers
          p v ∧
        ¬ (p.1 ∈ Set.Ico 1 7 ∧ p.2 ∈ Set.Ico 1 7)) entry.registerOverlaps := by
  have hresolved : draft.resolve [] 4 = .ok channels := eq_ok_of_toOption (by decide +kernel)
  have hspaced : channels.descriptor.count ≤ 1 ∨ channels.span ≤ channels.descriptor.stride :=
    .inr (by decide)
  have hapart : channels.registers.Pairwise fun t u => Disjoint t.bytes u.bytes := by
    have hctrl : (register "ctrl" 0).bytes = Set.Ico 0 4 := rfl
    have hdata : (register "data" 8).bytes = Set.Ico 8 12 := rfl
    simp [channels, hctrl, hdata]
  obtain ⟨hexpand, hreports⟩ := DraftArray.instances_apart hresolved hspaced hapart
  exact ⟨hresolved, hexpand, hreports entry [register "id" 0] [register "late" 20] rfl⟩

end ThreeChannels

end RegisterMap
