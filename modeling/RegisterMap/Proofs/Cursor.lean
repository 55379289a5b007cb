import RegisterMap.Proofs.Aliasing
import RegisterMap.Proofs.Instances

/-!
# Placement at the Cursor

An entry without an offset is placed at the byte cursor, which moves on to its end. Registers that
are placed so come in the order of their offsets and share no bytes, as long as the cursor really
lies behind everything that was placed. It does so behind a register, behind a gap, and behind an
array whose stride holds an instance.

An array of one instance may have any stride, since no two instances of it can overlap. Its end is
counted in strides all the same, and if the instance is longer than the stride, the cursor is left
in the middle of it. What follows is clear of the instance only where a gap makes up for that.

## Main results

* `resolveTemplate_below`, `resolveEntries_placed` — what is placed at the cursor, step by step.
* `BlockPart.below_iff` — when the registers of a part lie below those of a later one.
* `pairwise_below_iff` — to be below is to be in order and apart.
* `Draft.automatic_apart_iff` — when a block without offsets has its registers in order and apart.
-/

namespace RegisterMap

/-! ### Registers in order -/

/-- The register ends **no later than the other one starts**. -/
def Register.Below (r s : Register) : Prop := r.endOffset ≤ s.offset

/-- The end of the register is an **exact sum**. -/
def Register.Unclamped (r : Register) : Prop :=
  r.offset.toNat + r.sizeBytes.toNat < UInt64.size

instance (r : Register) : Decidable r.Unclamped := inferInstanceAs (Decidable (_ < _))

/-- A saturating sum is **no smaller than its first part**. -/
theorem le_satAdd (a b : UInt64) : a ≤ satAdd a b := by
  have hlt := a.toNat_lt
  rw [UInt64.le_iff_toNat_le, satAdd_toNat, UInt64.size]
  omega

/-- No register ends before it starts. -/
theorem Register.offset_le_endOffset (r : Register) : r.offset ≤ r.endOffset := le_satAdd _ _

/-- A register with bytes ends **behind its start**, where its end is not clamped. -/
theorem Register.Unclamped.offset_lt_endOffset {r : Register} (h : r.Unclamped)
    (hsize : 0 < r.sizeBytes.toNat) : r.offset < r.endOffset := by
  rw [Register.Unclamped] at h
  rw [UInt64.lt_iff_toNat_lt, endOffset, satAdd_toNat]
  omega

/-- Registers with bytes lie below each other in the order of a list exactly when their **offsets
rise and they are apart**. -/
theorem pairwise_below_iff {registers : List Register}
    (h : ∀ r ∈ registers, r.offset < r.endOffset) :
    registers.Pairwise Register.Below ↔
      (registers.Pairwise fun r s => r.offset < s.offset) ∧
        registers.Pairwise fun r s => Disjoint r.bytes s.bytes := by
  rw [← List.pairwise_and_iff]
  refine List.Pairwise.iff_of_mem fun {r s} hr hs => ?_
  have hr := UInt64.lt_iff_toNat_lt.mp (h r hr)
  have hs := UInt64.lt_iff_toNat_lt.mp (h s hs)
  rw [Register.Below, Register.bytes, Register.bytes, Set.Ico_disjoint_Ico,
    UInt64.le_iff_toNat_le, UInt64.lt_iff_toNat_lt]
  omega

/-- A span that is not zero is the **end of a register**. -/
theorem exists_endOffset_eq_spanOf {registers : List Register} (h : spanOf registers ≠ 0) :
    ∃ r ∈ registers, r.endOffset = spanOf registers := by
  have found (acc : UInt64) : registers.foldl (fun acc r => max acc r.endOffset) acc = acc ∨
      ∃ r ∈ registers,
        r.endOffset = registers.foldl (fun acc r => max acc r.endOffset) acc := by
    clear h
    induction registers generalizing acc with
    | nil => exact .inl rfl
    | cons r registers ih =>
        rw [List.foldl_cons]
        rcases ih (max acc r.endOffset) with heq | ⟨s, hs, heq⟩
        · rw [heq]
          change (if acc ≤ r.endOffset then r.endOffset else acc) = acc ∨ _
          by_cases hle : acc ≤ r.endOffset
          · exact .inr ⟨r, List.mem_cons_self, (if_pos hle).symm⟩
          · exact .inl (if_neg hle)
        · exact .inr ⟨s, List.mem_cons_of_mem r hs, heq⟩
  exact (found 0).resolve_left h

/-! ### Entries without offsets -/

/-- Neither the entry nor a register of the body that it repeats has an **offset of its own**. -/
def DraftEntry.Automatic (templates : List DraftTemplate) : DraftEntry → Prop
  | .register r => r.offset = none
  | .reserved _ _ => True
  | .array a => a.offset = none ∧ ∀ entries, a.bodyEntries templates = .ok entries →
      ∀ r, .register r ∈ entries → r.offset = none

/-- A register without an offset is placed **at the cursor**. -/
theorem DraftRegister.resolve_offset {r : DraftRegister} (h : r.offset = none)
    (cursor : Address) : Ensures (r.resolve cursor) (·.offset = cursor) :=
  .after fun _ => .ok (by rw [h, Option.getD_none])

/-- The registers of a template come **behind the cursor**, each below the next ones. -/
theorem resolveTemplate_below (cursor : Address) (entries : List DraftEntry)
    (h : ∀ r, .register r ∈ entries → r.offset = none) :
    Ensures (resolveTemplate cursor entries) fun ts =>
      (∀ t ∈ ts, cursor ≤ t.offset) ∧ ts.Pairwise Register.Below := by
  induction entries generalizing cursor with
  | nil => exact .ok ⟨by simp, List.Pairwise.nil⟩
  | cons e entries ih =>
      have hrest : ∀ r, .register r ∈ entries → r.offset = none :=
        fun r hr => h r (List.mem_cons_of_mem e hr)
      cases e with
      | register r =>
          refine (DraftRegister.resolve_offset (h r List.mem_cons_self) cursor).bind ?_
          rintro t rfl
          refine (ih t.endOffset hrest).bind fun ts hts => .ok ⟨?_, ?_⟩
          · refine List.forall_mem_cons.mpr ⟨UInt64.le_refl _, fun u hu => ?_⟩
            exact UInt64.le_trans t.offset_le_endOffset (hts.1 u hu)
          · exact List.pairwise_cons.mpr hts
      | reserved path bytes =>
          refine (ih _ hrest).imp fun ts hts => ⟨fun t ht => ?_, hts.2⟩
          exact UInt64.le_trans (le_satAdd _ _) (hts.1 t ht)
      | array a => exact .failAt _ _

/-- An array without offsets is placed **at the cursor**, and its template is in order. -/
theorem DraftArray.resolve_automatic {templates : List DraftTemplate}
    {a : DraftArray DraftEntry} (h : (DraftEntry.array a).Automatic templates)
    (cursor : Address) :
    Ensures (a.resolve templates cursor) fun array =>
      array.offset = cursor ∧ array.registers.Pairwise Register.Below := by
  refine (a.resolve_resolvesTo cursor).imp fun array harray => ?_
  obtain ⟨entries, hentries, hregisters⟩ := harray.registers_eq
  have hbelow := resolveTemplate_below 0 entries (h.2 entries hentries) _ hregisters
  exact ⟨by rw [harray.offset_eq, h.1, Option.getD_none], hbelow.2⟩

/-! ### Parts of a block -/

namespace BlockPart

/-- Where the part is placed. -/
def start : BlockPart → Address
  | plain r => r.offset
  | array a => a.offset

/-- Where the **cursor** is left behind the part. -/
def stop : BlockPart → Address
  | plain r => r.endOffset
  | array a => a.endOffset

/-- An array whose last instance ends within the address space, and whose template is **in order**;
or a plain register. -/
def InOrder : BlockPart → Prop
  | plain _ => True
  | array a => a.FitsAddressSpace ∧ a.registers.Pairwise Register.Below

end BlockPart

/-- A single instance that is **longer than the stride**. -/
def RegisterArray.Overhangs (a : RegisterArray) : Prop :=
  a.descriptor.count = 1 ∧ a.descriptor.stride < a.span

/-- No part of a block stops before it starts. -/
theorem BlockPart.start_le_stop (p : BlockPart) : p.start ≤ p.stop := by
  cases p with
  | plain r => exact r.offset_le_endOffset
  | array a => exact le_satAdd _ _

/-- The parts of a block are **placed** behind the cursor, each behind the ends of those before. -/
structure PlacedFrom (cursor : Address) (parts : List BlockPart) : Prop where
  start_le : ∀ p ∈ parts, cursor ≤ p.start
  in_order : ∀ p ∈ parts, p.InOrder
  behind : parts.Pairwise fun p q => p.stop ≤ q.start

namespace PlacedFrom

variable {cursor : Address} {parts : List BlockPart}

/-- A gap in front of the parts moves them on. -/
theorem mono {cursor' : Address} (h : PlacedFrom cursor' parts) (hle : cursor ≤ cursor') :
    PlacedFrom cursor parts :=
  ⟨fun p hp => UInt64.le_trans hle (h.start_le p hp), h.in_order, h.behind⟩

/-- A part at the cursor leaves it at its end. -/
theorem cons {p : BlockPart} (h : PlacedFrom p.stop parts) (hp : p.InOrder) :
    PlacedFrom p.start (p :: parts) where
  start_le := List.forall_mem_cons.mpr
    ⟨UInt64.le_refl _, fun q hq => UInt64.le_trans p.start_le_stop (h.start_le q hq)⟩
  in_order := List.forall_mem_cons.mpr ⟨hp, h.in_order⟩
  behind := List.pairwise_cons.mpr ⟨h.start_le, h.behind⟩

end PlacedFrom

/-- The registers and arrays are those of **parts that are placed** from the cursor on, which the
entries become one by one. -/
def ListsPlaced (templates : List DraftTemplate) (cursor : Address) (entries : List DraftEntry)
    (registers : List Register) (arrays : List RegisterArray) : Prop :=
  ∃ parts : List BlockPart,
    List.Forall₂ (BlockPart.OfEntry templates) (entries.filter (·.isPlaced)) parts ∧
      registers = parts.flatMap (·.registers) ∧ arrays = parts.filterMap (·.array?) ∧
      PlacedFrom cursor parts

/-- Entries without offsets are **placed one behind the other**. -/
theorem resolveEntries_placed {templates : List DraftTemplate} (cursor : Address)
    (entries : List DraftEntry) (h : ∀ e ∈ entries, e.Automatic templates) :
    Ensures (resolveEntries templates cursor entries) fun p =>
      ListsPlaced templates cursor entries p.1 p.2 := by
  induction entries generalizing cursor with
  | nil => exact .ok ⟨[], .nil, rfl, rfl, ⟨by simp, by simp, List.Pairwise.nil⟩⟩
  | cons e entries ih =>
      obtain ⟨he, hentries⟩ := List.forall_mem_cons.mp h
      cases e with
      | register r =>
          refine (Ensures.self _).bind fun register hregister => (ih _ hentries).bind ?_
          obtain rfl := DraftRegister.resolve_offset he cursor register hregister
          rintro p ⟨parts, hparts, hregisters, harrays, hplaced⟩
          exact .ok ⟨.plain register :: parts, .cons (.register hregister) hparts,
            congrArg (register :: ·) hregisters, harrays,
            hplaced.cons (p := .plain register) trivial⟩
      | reserved path bytes =>
          refine (ih _ hentries).imp ?_
          rintro p ⟨parts, hparts, hregisters, harrays, hplaced⟩
          exact ⟨parts, hparts, hregisters, harrays, hplaced.mono (le_satAdd _ _)⟩
      | array a =>
          refine (Ensures.self _).bind fun array harray => (ih _ hentries).bind ?_
          obtain ⟨rfl, hbelow⟩ := DraftArray.resolve_automatic he cursor array harray
          have hfits := (a.resolve_fits templates _ array harray).2
          rintro p ⟨parts, hparts, hregisters, harrays, hplaced⟩
          refine .ok ⟨.array array :: parts, .cons (.array harray) hparts, ?_,
            congrArg (array :: ·) harrays, hplaced.cons (p := .array array) ⟨hfits, hbelow⟩⟩
          rw [List.flatMap_cons, BlockPart.registers_array, hregisters]

/-! ### Registers of the parts -/

namespace RegisterArray

variable {a : RegisterArray}

/-- The end of an array lies **behind all its registers**, unless its only instance is too long. -/
theorem FitsAddressSpace.endOffset_le_endOffset (h : a.FitsAddressSpace) (hspaced : a.Spaced)
    (hlong : ¬ a.Overhangs) {r : Register} (hr : r ∈ a.expand) : r.endOffset ≤ a.endOffset := by
  obtain ⟨i, hi, t, ht, rfl⟩ := mem_expand_iff.mp hr
  have hi : i < a.descriptor.count := decide_eq_true_eq.mp hi
  have hindex : i.toNat + 1 ≤ a.descriptor.count.toNat := UInt64.lt_iff_toNat_lt.mp hi
  have hstride : a.span.toNat ≤ a.descriptor.stride.toNat := by
    rcases hspaced with hcount | hspan
    · rw [UInt64.le_iff_toNat_le, UInt64.toNat_one] at hcount
      have hone : a.descriptor.count = 1 := UInt64.toNat_inj.mp (by rw [UInt64.toNat_one]; omega)
      exact UInt64.le_iff_toNat_le.mp (UInt64.not_lt.mp fun hlt => hlong ⟨hone, hlt⟩)
    · exact UInt64.le_iff_toNat_le.mp hspan
  have hmoved : (i.toNat + 1) * a.descriptor.stride.toNat ≤
      a.descriptor.count.toNat * a.descriptor.stride.toNat := Nat.mul_le_mul_right _ hindex
  have hroom := h.instanceStart_add_span_lt hi
  have hspan : t.endOffset.toNat ≤ a.span.toNat :=
    UInt64.le_iff_toNat_le.mp (endOffset_le_spanOf ht)
  rw [UInt64.le_iff_toNat_le, h.materialize_endOffset hi ht, endOffset, satAdd_toNat,
    ArrayDescriptor.offsetOf, satMul_toNat]
  rw [instanceStart] at hroom ⊢
  rw [Nat.succ_mul] at hmoved
  omega

/-- The registers of an array come **behind its offset**. -/
theorem FitsAddressSpace.offset_le_offset (h : a.FitsAddressSpace) {r : Register}
    (hr : r ∈ a.expand) : a.offset ≤ r.offset := by
  obtain ⟨i, hi, t, ht, rfl⟩ := mem_expand_iff.mp hr
  rw [UInt64.le_iff_toNat_le, h.materialize_offset (decide_eq_true_eq.mp hi) ht]
  omega

/-- The registers of an array lie **below each other** if those of its template do. -/
theorem FitsAddressSpace.pairwise_below (h : a.FitsAddressSpace) (hspaced : a.Spaced)
    (hbelow : a.registers.Pairwise Register.Below) : a.expand.Pairwise Register.Below := by
  refine pairwise_expand_iff.mpr ⟨fun i hi => hbelow.imp_of_mem fun {t u} ht hu htu => ?_,
    fun i j hij hj t ht u hu => h.endOffset_le_offset hspaced hij hj ht hu⟩
  have htu : t.endOffset.toNat ≤ u.offset.toNat := UInt64.le_iff_toNat_le.mp htu
  have hoffset : (a.materialize i u).offset.toNat = a.instanceStart i + u.offset.toNat :=
    h.materialize_offset hi hu
  rw [Register.Below, UInt64.le_iff_toNat_le, h.materialize_endOffset hi ht, hoffset]
  omega

/-- The registers of a single instance **end with it**, and one of them where it ends. -/
theorem FitsAddressSpace.below_iff_of_overhangs (h : a.FitsAddressSpace) (hlong : a.Overhangs)
    (offset : Address) :
    (∀ r ∈ a.expand, r.endOffset ≤ offset) ↔
      a.offset.toNat + a.span.toNat ≤ offset.toNat := by
  have hone : a.descriptor.count.toNat = 1 := congrArg UInt64.toNat hlong.1
  have hcontains : (0 : UInt64) < a.descriptor.count := by
    rw [hlong.1]
    decide
  constructor
  · intro hbelow
    have hspan : a.span ≠ 0 := fun hzero => UInt64.not_lt_zero (hzero ▸ hlong.2)
    obtain ⟨t, ht, hend⟩ := exists_endOffset_eq_spanOf hspan
    have hr : a.materialize 0 t ∈ a.expand :=
      mem_expand_iff.mpr ⟨0, decide_eq_true hcontains, t, ht, rfl⟩
    have hle := UInt64.le_iff_toNat_le.mp (hbelow _ hr)
    rwa [h.materialize_endOffset hcontains ht, hend, instanceStart, UInt64.toNat_zero, Nat.zero_mul,
      Nat.add_zero] at hle
  · intro hle r hr
    obtain ⟨i, hi, t, ht, rfl⟩ := mem_expand_iff.mp hr
    have hi : i < a.descriptor.count := decide_eq_true_eq.mp hi
    have hzero : i.toNat = 0 := by
      have hlt := UInt64.lt_iff_toNat_lt.mp hi
      omega
    have hspan : t.endOffset.toNat ≤ a.span.toNat :=
      UInt64.le_iff_toNat_le.mp (endOffset_le_spanOf ht)
    rw [UInt64.le_iff_toNat_le, h.materialize_endOffset hi ht, instanceStart, hzero, Nat.zero_mul]
    omega

end RegisterArray

namespace BlockPart

variable {p q : BlockPart}

/-- The array that a part may be has room for its instances. -/
def Spaced (p : BlockPart) : Prop := ∀ a, p = array a → a.Spaced

/-- The part, if its instance is too long, is **cleared** by the other: no register of that one
starts before the instance ends. -/
def ClearedBy (p q : BlockPart) : Prop :=
  ∀ a, p = array a → a.Overhangs →
    ∀ r ∈ q.registers, a.offset.toNat + a.span.toNat ≤ r.offset.toNat

/-- The registers of a part in order start no earlier than the part. -/
theorem InOrder.start_le_offset (h : p.InOrder) {r : Register} (hr : r ∈ p.registers) :
    p.start ≤ r.offset := by
  cases p with
  | plain s =>
      obtain rfl := List.mem_singleton.mp hr
      exact UInt64.le_refl _
  | array a => exact h.1.offset_le_offset (registers_array a ▸ hr)

/-- The registers of a part in order that is spaced are **below one another**. -/
theorem InOrder.pairwise_below (h : p.InOrder) (hspaced : p.Spaced) :
    p.registers.Pairwise Register.Below := by
  cases p with
  | plain s => exact List.pairwise_singleton _ _
  | array a =>
      rw [registers_array]
      exact h.1.pairwise_below (hspaced a rfl) h.2

/-- The registers of a part lie **below those of a part placed behind its end** exactly when that
one clears it. -/
theorem below_iff (hp : p.InOrder) (hq : q.InOrder) (hspaced : p.Spaced)
    (hbehind : p.stop ≤ q.start) :
    (∀ r ∈ p.registers, ∀ s ∈ q.registers, r.Below s) ↔ p.ClearedBy q := by
  have hstart {s : Register} (hs : s ∈ q.registers) : p.stop ≤ s.offset :=
    UInt64.le_trans hbehind (hq.start_le_offset hs)
  cases p with
  | plain r =>
      refine iff_of_true (fun r' hr' s hs => ?_) (fun a ha => nomatch ha)
      obtain rfl := List.mem_singleton.mp hr'
      exact hstart hs
  | array a =>
      rw [registers_array]
      by_cases hlong : a.Overhangs
      · have heach (s : Register) := hp.1.below_iff_of_overhangs hlong s.offset
        constructor
        · rintro hbelow _ ⟨⟩ - s hs
          exact (heach s).mp fun r hr => hbelow r hr s hs
        · intro hcleared r hr s hs
          exact (heach s).mpr (hcleared a rfl hlong s hs) r hr
      · refine iff_of_true (fun r hr s hs => ?_) ?_
        · exact UInt64.le_trans (hp.1.endOffset_le_endOffset (hspaced a rfl) hlong hr) (hstart hs)
        · rintro _ ⟨⟩ h
          exact absurd h hlong

end BlockPart

/-- Placed parts have all their registers **below each other** exactly when each clears those
before. -/
theorem PlacedFrom.pairwise_below_iff {cursor : Address} {parts : List BlockPart}
    (h : PlacedFrom cursor parts) (hspaced : ∀ p ∈ parts, p.Spaced) :
    (parts.flatMap (·.registers)).Pairwise Register.Below ↔
      parts.Pairwise BlockPart.ClearedBy := by
  rw [List.pairwise_flatMap]
  have hparts : ∀ p ∈ parts, p.registers.Pairwise Register.Below :=
    fun p hp => (h.in_order p hp).pairwise_below (hspaced p hp)
  rw [and_iff_right hparts]
  constructor
  · intro hbelow
    refine (hbelow.and h.behind).imp_of_mem fun {p q} hp hq hpq => ?_
    exact (BlockPart.below_iff (h.in_order p hp) (h.in_order q hq) (hspaced p hp) hpq.2).mp hpq.1
  · intro hcleared
    refine (hcleared.and h.behind).imp_of_mem fun {p q} hp hq hpq => ?_
    exact (BlockPart.below_iff (h.in_order p hp) (h.in_order q hq) (hspaced p hp) hpq.2).mpr hpq.1

/-! ### Blocks -/

namespace BlockEntry

/-- No overlap is reported exactly when the registers are **apart**. -/
theorem registerOverlaps_eq_nil_iff (e : BlockEntry) :
    e.registerOverlaps = [] ↔
      e.block.registers.Pairwise fun r s => Disjoint r.bytes s.bytes :=
  e.lists_clashes.eq_nil_iff.trans no_clashReport_iff

/-- No stride is reported exactly when the arrays have **room** for their instances. -/
theorem shortStrides_eq_nil_iff (e : BlockEntry) :
    e.shortStrides = [] ↔ ∀ a ∈ e.block.arrays, a.Spaced := by
  rw [shortStrides, List.flatMap_eq_nil_iff]
  refine forall₂_congr fun a _ => ?_
  rw [RegisterArray.Spaced, ← UInt64.not_lt, ← UInt64.not_lt, ← not_and_or]
  by_cases hshort : 1 < a.descriptor.count ∧ a.descriptor.stride < a.span
  · rw [if_pos hshort]
    exact iff_of_false (List.cons_ne_nil _ _) (not_not_intro hshort)
  · rw [if_neg hshort]
    exact iff_of_true rfl hshort

end BlockEntry

/-- **Automatic placement.** Take a block of a document in which nothing has an offset of its own,
whose registers end within the address space, and about whose strides nothing is reported. Its
offsets rise in the order of the list, its registers are apart and no overlap is reported exactly
when every array of a single instance longer than its stride is cleared by all parts behind it. -/
theorem Draft.automatic_apart_iff {options : Options} {sections : List Yaml.Value} {d : Draft}
    (hd : Draft.ofSections options sections = .ok d) {map : DraftMap} (hmap : map ∈ d.maps)
    {b : DraftBlock} (hb : b ∈ map.blocks) (hautomatic : ∀ e ∈ b.entries, e.Automatic d.templates)
    {e : BlockEntry} (hresolve : b.resolve options d.templates = .ok e.block)
    (hroom : ∀ r ∈ e.block.registers, r.Unclamped) (hstrides : e.shortStrides = []) :
    ∃ parts : List BlockPart,
      List.Forall₂ (BlockPart.OfEntry d.templates) (b.entries.filter (·.isPlaced)) parts ∧
      e.block.registers = parts.flatMap (·.registers) ∧
      e.block.arrays = parts.filterMap (·.array?) ∧
      (((e.block.registers.Pairwise fun r s => r.offset < s.offset) ∧
          (e.block.registers.Pairwise fun r s => Disjoint r.bytes s.bytes) ∧
          e.registerOverlaps = []) ↔
        parts.Pairwise BlockPart.ClearedBy) := by
  have hread := Draft.ofSections_registers sections d hd
  have hfrom := DraftBlock.resolve_from (hread.blocks map hmap b hb) hread.templates _ hresolve
  have hbytes : ∀ r ∈ e.block.registers, r.offset < r.endOffset :=
    fun r hr => (hroom r hr).offset_lt_endOffset (hfrom.registers_from r hr).sizeBytes_pos
  obtain ⟨p, hp, hblock⟩ := bind_eq_ok_iff.mp hresolve
  obtain ⟨parts, hparts, hregisters, harrays, hplaced⟩ :=
    resolveEntries_placed 0 b.entries hautomatic p hp
  have hblock := pure_eq_ok_iff.mp hblock
  have hregisters : e.block.registers = parts.flatMap (·.registers) := by
    rw [← hblock]
    exact hregisters
  have harrays : e.block.arrays = parts.filterMap (·.array?) := by
    rw [← hblock]
    exact harrays
  have hspaced : ∀ p ∈ parts, p.Spaced := by
    rintro _ hp a rfl
    refine e.shortStrides_eq_nil_iff.mp hstrides a ?_
    rw [harrays]
    exact List.mem_filterMap.mpr ⟨_, hp, rfl⟩
  refine ⟨parts, hparts, hregisters, harrays, ?_⟩
  rw [e.registerOverlaps_eq_nil_iff, and_self_iff, ← pairwise_below_iff hbytes, hregisters]
  exact hplaced.pairwise_below_iff hspaced


/-! ### A single instance longer than its stride -/

/-- The end of the array and those of its template registers are **exact sums**. -/
def RegisterArray.Unclamped (a : RegisterArray) : Prop :=
  a.offset.toNat + a.descriptor.count.toNat * a.descriptor.stride.toNat < UInt64.size ∧
    ∀ t ∈ a.registers, t.Unclamped

instance (a : RegisterArray) : Decidable a.Unclamped := inferInstanceAs (Decidable (_ ∧ _))

namespace SingleInstance

open Yaml (Value)

/-- A document with an array of one instance, whose stride is half of it, and a register behind it.
Between the two stands what `gap` lists. -/
def document (gap : List Value) : List Value :=
  [.map [(.str "memoryMaps", .seq [.map
    [(.str "name", .str "soc"), (.str "addressBlocks", .seq [.map
      [(.str "name", .str "unit"), (.str "offset", .int 0), (.str "registers", .seq <|
        [.map [(.str "name", .str "ch"), (.str "count", .int 1), (.str "stride", .int 4),
          (.str "registers", .seq
            [.map [(.str "name", .str "ctrl")], .map [(.str "name", .str "data")]])]] ++
        gap ++ [.map [(.str "name", .str "last")]])]])]])]]

/-- A gap of four bytes. -/
def gap : List Value := [.map [(.str "reserved", .int 4)]]

/-- The gap in typed form. -/
def draftGap : List DraftEntry := [.reserved "soc.unit.registers[1]" 4]

/-- A register of four bytes in the document. -/
def registerAt (path name : String) : DraftRegister :=
  { path, name, description := none, offset := none, width := 32, access := .readWrite,
    resetValue := none, fields := [] }

/-- The array in the document. -/
def draftArray : DraftArray DraftEntry :=
  { path := "soc.unit.ch", name := "ch", offset := none, count := 1, stride := some 4,
    indexStart := 0, naming := none,
    body := .inline [.register (registerAt "soc.unit.ch.ctrl" "ctrl"),
      .register (registerAt "soc.unit.ch.data" "data")] }

/-- The block in the document. -/
def draftBlock (gap : List DraftEntry) : DraftBlock :=
  { path := "soc.unit", name := "unit", description := none, baseOffset := 0, size := none,
    usage := .register,
    entries := [.array draftArray] ++ gap ++ [.register (registerAt "soc.unit.last" "last")] }

/-- The document in typed form. -/
def draft (gap : List DraftEntry) : Draft :=
  { shape := .current
    maps := [{ name := "soc", description := none, blocks := [draftBlock gap] }] }

/-- A register of four bytes. -/
def register (name : String) (offset : Address) : Register :=
  { name, offset, width := 32, access := .readWrite }

/-- The array: its end is in the middle of its instance. -/
def array : RegisterArray :=
  { name := "ch", offset := 0, descriptor := { count := 1, stride := 4 },
    registers := [register "ctrl" 0, register "data" 4] }

/-- The block, with the last register at `last`. -/
def block (last : Address) : AddressBlock :=
  { name := "unit", baseOffset := 0, size := 64
    registers := array.expand ++ [register "last" last], arrays := [array] }

/-- The block, in its map. -/
def entry (last : Address) : BlockEntry :=
  { map := { name := "soc", blocks := [block last] }, block := block last }

/-- The document, drafted. -/
theorem drafted : Draft.ofSections {} (document []) = .ok (draft []) := rfl

/-- The document with a gap, drafted. -/
theorem drafted_gap : Draft.ofSections {} (document gap) = .ok (draft draftGap) := rfl

/-- The register behind the array is placed **inside its only instance**. -/
theorem resolved : (draftBlock []).resolve {} [] = .ok (block 4) :=
  eq_ok_of_toOption (by decide +kernel)

/-- Behind a gap it is placed at the end of the instance. -/
theorem resolved_gap : (draftBlock draftGap).resolve {} [] = .ok (block 8) :=
  eq_ok_of_toOption (by decide +kernel)

/-- The array leaves its offset open. -/
theorem automatic_array : (DraftEntry.array draftArray).Automatic [] := by
  refine ⟨rfl, ?_⟩
  rintro _ ⟨⟩ r hr
  simp only [List.mem_cons, DraftEntry.register.injEq, List.not_mem_nil, or_false] at hr
  rcases hr with rfl | rfl <;> rfl

/-- Behind a gap of four bytes, the last register is clear of an instance that is four bytes longer
than its stride. -/
theorem automatic_apart_iff_gap :
    array.Overhangs ∧ Draft.ofSections {} (document gap) = .ok (draft draftGap) ∧
      (draftBlock draftGap).resolve {} [] = .ok (block 8) ∧
      ((block 8).registers.Pairwise fun r s => r.offset < s.offset) ∧
      ((block 8).registers.Pairwise fun r s => Disjoint r.bytes s.bytes) ∧
      (entry 8).registerOverlaps = [] := by
  have hautomatic : ∀ e ∈ (draftBlock draftGap).entries, e.Automatic [] := by
    refine List.forall_mem_cons.mpr ⟨automatic_array, ?_⟩
    exact List.forall_mem_cons.mpr ⟨trivial, List.forall_mem_singleton.mpr rfl⟩
  obtain ⟨parts, hparts, hregisters, harrays, hiff⟩ := Draft.automatic_apart_iff drafted_gap
    List.mem_cons_self List.mem_cons_self hautomatic (e := entry 8) resolved_gap
    (by decide +kernel) (by decide +kernel)
  refine ⟨⟨rfl, by decide⟩, drafted_gap, resolved_gap, hiff.mpr ?_⟩
  obtain ⟨a, r, rfl⟩ : ∃ a r, parts = [.array a, .plain r] := by
    have hparts : List.Forall₂ (BlockPart.OfEntry [])
      [.array draftArray, .register (registerAt "soc.unit.last" "last")] parts := hparts
    obtain _ | ⟨⟨-⟩, _ | ⟨⟨-⟩, ⟨⟩⟩⟩ := hparts
    exact ⟨_, _, rfl⟩
  obtain rfl : array = a := List.singleton_inj.mp harrays
  have hlast : array.expand ++ [register "last" 8] = array.expand ++ [r] := by
    rw [← BlockPart.registers_array array]
    exact hregisters
  obtain rfl := List.singleton_inj.mp (List.append_cancel_left hlast)
  refine List.pairwise_pair.mpr ?_
  rintro _ ⟨⟩ - s hs
  obtain rfl := List.mem_singleton.mp hs
  decide

/-- Registers that are placed automatically are not always apart: without the gap, the last register
is placed over the end of the instance, although no sum is clamped and no stride is reported. -/
theorem not_all_automatic_apart :
    ¬ ∀ (options : Options) (sections : List Value) (d : Draft),
      Draft.ofSections options sections = .ok d → ∀ map ∈ d.maps, ∀ b ∈ map.blocks,
        (∀ x ∈ b.entries, x.Automatic d.templates ∧ x.isPlaced) →
        ∀ e : BlockEntry, b.resolve options d.templates = .ok e.block →
          (∀ r ∈ e.block.registers, r.Unclamped) → (∀ a ∈ e.block.arrays, a.Unclamped) →
          e.shortStrides = [] →
          (e.block.registers.Pairwise fun r s => r.offset < s.offset) ∧
            (e.block.registers.Pairwise fun r s => Disjoint r.bytes s.bytes) ∧
            e.registerOverlaps = [] := by
  intro hall
  have hautomatic : ∀ x ∈ (draftBlock []).entries, x.Automatic [] ∧ x.isPlaced :=
    List.forall_mem_cons.mpr ⟨⟨automatic_array, rfl⟩, List.forall_mem_singleton.mpr ⟨rfl, rfl⟩⟩
  obtain ⟨hrising, -, -⟩ := hall {} (document []) (draft []) drafted _ List.mem_cons_self _
    List.mem_cons_self hautomatic (entry 4) resolved (by decide +kernel) (by decide +kernel)
    (by decide +kernel)
  exact absurd hrising (by decide +kernel)

end SingleInstance

end RegisterMap
