import RegisterMap.Proofs.Handles
import RegisterMap.Proofs.Separation

/-!
# The Layout of Resolved Models

What a model looks like once a document has resolved, whatever the document and the options. Maps
have names of their own; registers have a width that a bus can transfer and fields of at least one
bit; arrays have at least one instance and no more than the options allow. A block lists its
registers in the order of the document's entries, an array standing for its instances, and a
register of an instance is exactly where the array's offset, the stride and the template put it:
the check of the last instance's end leaves no sum or product of them to be clamped.

## Main results

* `FieldPlacer.place_width` — a field that is placed has bits.
* `readBlock_counts` — what is read as the number of instances.
* `RegisterArray.FitsAddressSpace.materialize_offset` — offsets of instances are not clamped.
* `resolveEntries_lists` — what a block lists, in order.
* `Model.ofSections_wellFormed` — the layout of a resolved model.
-/

namespace RegisterMap

variable {options : Options}

/-! ### Parts of a register list -/

/-- A **part of a block's register list**: one plain register, or an array. -/
inductive BlockPart where
  | plain (register : Register)
  | array (array : RegisterArray)

namespace BlockPart

/-- The registers that a part lists. An array lists its instances by rising index, and each of them
in the order of the template. -/
def registers : BlockPart → List Register
  | .plain r => [r]
  | .array a =>
    (List.range a.descriptor.count.toNat).flatMap fun i =>
      a.registers.map (a.materialize (.ofNat i))

/-- The array that a part is. -/
def array? : BlockPart → Option RegisterArray
  | .plain _ => none
  | .array a => some a

/-- What an entry of a register list **becomes** when it is resolved at some cursor. -/
inductive OfEntry (templates : List DraftTemplate) : DraftEntry → BlockPart → Prop
  | register {r : DraftRegister} {cursor : Address} {register : Register}
      (h : r.resolve cursor = .ok register) : OfEntry templates (.register r) (.plain register)
  | array {a : DraftArray DraftEntry} {cursor : Address} {array : RegisterArray}
      (h : a.resolve templates cursor = .ok array) : OfEntry templates (.array a) (.array array)

end BlockPart

/-- An entry that is more than a gap. -/
def DraftEntry.isPlaced : DraftEntry → Bool
  | .reserved _ _ => false
  | _ => true

/-- Registers and arrays **list the entries**: they are those of the parts that the entries become,
one after the other. -/
def ListsInOrder (templates : List DraftTemplate) (entries : List DraftEntry)
    (registers : List Register) (arrays : List RegisterArray) : Prop :=
  ∃ parts : List BlockPart,
    List.Forall₂ (BlockPart.OfEntry templates) (entries.filter (·.isPlaced)) parts ∧
      registers = parts.flatMap (·.registers) ∧ arrays = parts.filterMap (·.array?)

/-! ### Well-formed parts of a model -/

/-- A register of a **supported width** whose fields all have bits. -/
structure Register.WellFormed (r : Register) : Prop where
  width_mem : r.width ∈ [8, 16, 32, 64]
  one_le_bitWidth : ∀ f ∈ r.fields, 1 ≤ f.bitWidth

/-- An array with an admissible number of instances, each with the registers of the template, and
**none of them clamped**. -/
structure RegisterArray.WellFormed (options : Options) (a : RegisterArray) : Prop where
  one_le_count : 1 ≤ a.descriptor.count
  count_le : a.descriptor.count ≤ options.maxArrayCount
  length_registers : (BlockPart.array a).registers.length =
    a.descriptor.count.toNat * a.registers.length
  offset_eq : ∀ i < a.descriptor.count, ∀ t ∈ a.registers,
    (a.materialize i t).offset.toNat =
      a.offset.toNat + i.toNat * a.descriptor.stride.toNat + t.offset.toNat

/-- A block whose registers, templates and arrays are well formed. -/
structure AddressBlock.WellFormed (options : Options) (b : AddressBlock) : Prop where
  registers : ∀ r ∈ b.registers, r.WellFormed
  templates : ∀ a ∈ b.arrays, ∀ t ∈ a.registers, t.WellFormed
  arrays : ∀ a ∈ b.arrays, a.WellFormed options

/-! ### Fields -/

/-- A field that is placed **has bits**. -/
theorem FieldPlacer.place_width {p p' : FieldPlacer} {placement : Placement} {span : BitSpan}
    (h : p.place placement = (.ok span, p')) : span.width ≠ 0 := by
  rw [place] at h
  split at h
  · simp at h
  · split at h
    · simp at h
    · next hwidth =>
      simp only [Prod.mk.injEq, Except.ok.injEq] at h
      exact h.1 ▸ hwidth

/-- Every field that is placed has **at least one bit**. -/
theorem placeFields_bitWidth (access : AccessPolicy) (placer : FieldPlacer)
    (fields : List DraftField) :
    Ensures (placeFields access placer fields) fun fs => ∀ f ∈ fs, 1 ≤ f.bitWidth := by
  induction fields generalizing placer with
  | nil => exact .ok (by simp)
  | cons f fields ih =>
      rw [placeFields]
      split
      · exact .failAt _ _
      · next span placer' hplace =>
        refine (ih placer').bind fun fs hfs => .ok (List.forall_mem_cons.mpr ⟨?_, hfs⟩)
        have hwidth : span.width.toNat ≠ 0 := by
          simpa [← UInt32.toNat_inj] using FieldPlacer.place_width hplace
        rw [UInt32.le_iff_toNat_le]
        exact Nat.one_le_iff_ne_zero.mpr hwidth

/-- A register that was read is well-formed, wherever it is placed. -/
theorem Register.From.wellFormed {register : Register}
    (h : register.From (·.IsRead options)) : register.WellFormed := by
  refine ⟨h.width_supported, ?_⟩
  obtain ⟨r, -, cursor, resolved, hresolve, name, offset, arrayInstance, rfl⟩ := h
  have hfields : Ensures (r.resolve cursor) fun register => ∀ f ∈ register.fields, 1 ≤ f.bitWidth :=
    (placeFields_bitWidth _ _ _).bind fun _ hfs => .ok hfs
  exact hfields resolved hresolve

/-! ### Numbers of instances -/

/-- The entry has an admissible number of instances, if it is an array. -/
def DraftEntry.CountAdmitted (options : Options) (e : DraftEntry) : Prop :=
  ∀ a, e = .array a → 1 ≤ a.count ∧ a.count ≤ options.maxArrayCount

/-- An array that is read has **at least one instance and no more than the options allow**. -/
theorem readCount_bounds (n : Located) :
    Ensures (readCount options n) fun count => 1 ≤ count ∧ count ≤ options.maxArrayCount := by
  refine .after fun _ => .after fun count => ?_
  split
  · exact .failAt _ _
  · next hzero =>
    split
    · exact .failAt _ _
    · next hlimit =>
      refine .ok ⟨?_, UInt64.not_lt.mp hlimit⟩
      rw [UInt64.le_iff_toNat_le]
      exact Nat.one_le_iff_ne_zero.mpr fun h => hzero (UInt64.toNat_inj.mp h)

/-- An array is read with **at least one instance**, and no more than the options admit. -/
theorem readArrayParts_count (n : Located) (name : String) (offsetKeys : List String)
    (body : Checked (ArrayBody DraftEntry)) :
    Ensures (readArrayParts options n name offsetKeys body) fun a =>
      1 ≤ a.count ∧ a.count ≤ options.maxArrayCount :=
  .after fun _ => (readCount_bounds n).bind fun _ h => .after fun _ => .after fun _ =>
    .after fun _ => .after fun _ => .ok h

/-- So is an array with its template in place. -/
theorem readInlineArray_count (parent : String) (n : Located) :
    Ensures (readInlineArray options parent n) fun a =>
      (DraftEntry.array a).CountAdmitted options := by
  refine .after fun _ => .after fun _ => (readArrayParts_count _ _ _ _).imp ?_
  rintro a h _ ⟨⟩
  exact h

/-- So is an array that names its template. -/
theorem readTemplateArray_count (parent : String) (n : Located) :
    Ensures (readTemplateArray options parent n) fun a =>
      (DraftEntry.array a).CountAdmitted options := by
  refine .after fun _ => .after fun _ => .after fun _ => .after fun _ =>
    (readArrayParts_count _ _ _ _).imp ?_
  rintro a h _ ⟨⟩
  exact h

/-- All arrays of a list have counts within **these limits**. -/
theorem readEntries_counts (parent : String) (list : Located) :
    Ensures (readEntries options parent list) fun entries =>
      ∀ e ∈ entries, e.CountAdmitted options :=
  readEntries_ensures readInlineArray_count readTemplateArray_count (fun _ _ _ h => nomatch h)
    (fun _ _ _ h => nomatch h) parent list

/-- The arrays of a block have **admissible numbers of instances**. -/
theorem readBlock_counts (map : String) (n : Located) :
    Ensures (readBlock options map n) fun b => ∀ e ∈ b.entries, e.CountAdmitted options :=
  readBlock_entries readEntries_counts (fun _ he => nomatch he) map n

/-! ### Offsets -/

/-- The last instance of the array ends **within the address space**. -/
def RegisterArray.FitsAddressSpace (a : RegisterArray) : Prop :=
  (a.descriptor.count.toNat - 1) * a.descriptor.stride.toNat + a.span.toNat + a.offset.toNat <
    UInt64.size

/-- With the last instance, **every instance** ends within the address space. -/
theorem RegisterArray.FitsAddressSpace.room {a : RegisterArray} (h : a.FitsAddressSpace)
    {i : UInt64} (hi : i < a.descriptor.count) :
    i.toNat * a.descriptor.stride.toNat + a.span.toNat + a.offset.toNat < UInt64.size := by
  have hindex : i.toNat ≤ a.descriptor.count.toNat - 1 :=
    Nat.le_pred_of_lt (UInt64.lt_iff_toNat_lt.mp hi)
  have hstride : i.toNat * a.descriptor.stride.toNat ≤
      (a.descriptor.count.toNat - 1) * a.descriptor.stride.toNat := Nat.mul_le_mul_right _ hindex
  rw [FitsAddressSpace] at h
  omega

/-- Where the last instance ends within the address space, **no offset is clamped**: the largest
offset that any instance needs lies before that end. -/
theorem RegisterArray.FitsAddressSpace.materialize_offset {a : RegisterArray}
    (h : a.FitsAddressSpace) {i : UInt64} (hi : i < a.descriptor.count) {t : Register}
    (ht : t ∈ a.registers) :
    (a.materialize i t).offset.toNat =
      a.offset.toNat + i.toNat * a.descriptor.stride.toNat + t.offset.toNat := by
  have hroom := h.room hi
  have hspan : t.offset.toNat ≤ a.span.toNat := by
    have hend : t.endOffset.toNat ≤ a.span.toNat :=
      UInt64.le_iff_toNat_le.mp (endOffset_le_spanOf ht)
    rw [Register.endOffset, satAdd_toNat] at hend
    have hlt := t.offset.toNat_lt
    simp only [UInt64.size] at *
    omega
  simp only [materialize, instanceOffset, ArrayDescriptor.offsetOf, satAdd_toNat, satMul_toNat]
  omega

/-- An array that resolves keeps its number of instances and **fits the address space**. -/
theorem DraftArray.resolve_fits (templates : List DraftTemplate) (a : DraftArray DraftEntry)
    (cursor : Address) :
    Ensures (a.resolve templates cursor) fun array =>
      array.descriptor.count = a.count ∧ array.FitsAddressSpace := by
  refine (a.resolve_resolvesTo cursor).imp fun array harray => ⟨harray.count_eq, ?_⟩
  have hfits := harray.fits
  rwa [fitsAddressSpace, decide_eq_true_eq] at hfits

/-! ### Register lists -/

/-- An array expands to its instances in order. -/
theorem BlockPart.registers_array (a : RegisterArray) : (array a).registers = a.expand := by
  rw [registers, RegisterArray.expand, ArrayDescriptor.instances, List.flatMap_map]
  refine List.flatMap_congr fun i hi => ?_
  have hcontains : a.descriptor.contains (.ofNat i) = true :=
    ArrayDescriptor.mem_instances_iff.mp (List.mem_map_of_mem hi)
  rw [RegisterArray.instance?, if_pos hcontains, Option.getD_some]

/-- An array contributes as many registers as it has instances, **times those of the template**. -/
theorem BlockPart.length_registers_array (a : RegisterArray) :
    (array a).registers.length = a.descriptor.count.toNat * a.registers.length := by
  simp [registers, List.length_flatMap]

/-- Resolving a register list **lists its entries in order**. -/
theorem resolveEntries_lists (templates : List DraftTemplate) (cursor : Address)
    (entries : List DraftEntry) :
    Ensures (resolveEntries templates cursor entries) fun p =>
      ListsInOrder templates entries p.1 p.2 := by
  induction entries generalizing cursor with
  | nil => exact .ok ⟨[], .nil, rfl, rfl⟩
  | cons e entries ih =>
      cases e with
      | register r =>
          refine (Ensures.self _).bind fun register hregister => (ih _).bind ?_
          rintro p ⟨parts, hparts, hregisters, harrays⟩
          exact .ok ⟨.plain register :: parts, .cons (.register hregister) hparts,
            congrArg (register :: ·) hregisters, harrays⟩
      | reserved path bytes => exact ih _
      | array a =>
          refine (Ensures.self _).bind fun array harray => (ih _).bind ?_
          rintro p ⟨parts, hparts, hregisters, harrays⟩
          refine .ok ⟨.array array :: parts, .cons (.array harray) hparts, ?_,
            congrArg (array :: ·) harrays⟩
          rw [List.flatMap_cons, BlockPart.registers_array, hregisters]

/-- An array that is listed resolves one of the entries. -/
theorem ListsInOrder.exists_entry {templates : List DraftTemplate} {entries : List DraftEntry}
    {registers : List Register} {arrays : List RegisterArray}
    (h : ListsInOrder templates entries registers arrays) {array : RegisterArray}
    (harray : array ∈ arrays) :
    ∃ a, .array a ∈ entries ∧ ∃ cursor, a.resolve templates cursor = .ok array := by
  obtain ⟨parts, hparts, -, rfl⟩ := h
  obtain ⟨part, hpart, hsome⟩ := List.mem_filterMap.mp harray
  obtain ⟨e, he, hbecomes⟩ := exists_of_mem_of_forall₂ hparts hpart
  cases hbecomes with
  | register hresolve => nomatch hsome
  | array hresolve =>
      obtain rfl := Option.some.inj hsome
      exact ⟨_, List.mem_of_mem_filter he, _, hresolve⟩

/-! ### Models -/

/-- The blocks of a map **list the entries** of the blocks of a draft's map. -/
def MemoryMap.ListsInOrder (templates : List DraftTemplate) (dm : DraftMap) (map : MemoryMap) :
    Prop :=
  map.name = dm.name ∧ List.Forall₂ (fun b block => block.name = b.name ∧
    RegisterMap.ListsInOrder templates b.entries block.registers block.arrays) dm.blocks map.blocks

/-- A model that is resolved from a draft has its maps and blocks in their order, and the blocks
list the entries. -/
theorem Draft.resolve_lists (d : Draft) :
    Ensures (d.resolve options) fun m =>
      List.Forall₂ (MemoryMap.ListsInOrder d.templates) d.maps m.memoryMaps := by
  intro m hm
  obtain ⟨maps, hmaps, hm⟩ := bind_eq_ok_iff.mp hm
  obtain rfl := pure_eq_ok_iff.mp hm
  refine (mapM_eq_ok_iff.mp hmaps).imp fun dm map hmap => ?_
  obtain ⟨blocks, hblocks, hmap⟩ := bind_eq_ok_iff.mp hmap
  obtain rfl := pure_eq_ok_iff.mp hmap
  refine ⟨rfl, (mapM_eq_ok_iff.mp hblocks).imp fun b block hblock => ?_⟩
  obtain ⟨p, hp, hblock⟩ := bind_eq_ok_iff.mp hblock
  obtain rfl := pure_eq_ok_iff.mp hblock
  exact ⟨rfl, resolveEntries_lists _ _ _ p hp⟩

/-- Every array of a block that resolves is what **an array of the draft** resolves to. -/
theorem DraftBlock.resolve_array {templates : List DraftTemplate} (b : DraftBlock) :
    Ensures (b.resolve options templates) fun block => ∀ array ∈ block.arrays,
      ∃ a, .array a ∈ b.entries ∧ ∃ cursor, a.resolve templates cursor = .ok array :=
  (resolveEntries_lists templates 0 b.entries).bind fun _ hp => .ok fun _ => hp.exists_entry

/-- Every array of a block that resolves has an **admissible number of instances** and fits the
address space. -/
theorem DraftBlock.resolve_arrays {templates : List DraftTemplate} {b : DraftBlock}
    (hcounts : ∀ e ∈ b.entries, e.CountAdmitted options) :
    Ensures (b.resolve options templates) fun block =>
      ∀ a ∈ block.arrays, a.WellFormed options := by
  refine b.resolve_array.imp fun block hblock array harray => ?_
  obtain ⟨a, ha, cursor, hresolve⟩ := hblock array harray
  obtain ⟨hcount, hfits⟩ := a.resolve_fits templates cursor array hresolve
  obtain ⟨hpos, hle⟩ := hcounts _ ha a rfl
  rw [← hcount] at hpos hle
  exact ⟨hpos, hle, BlockPart.length_registers_array array,
    fun i hi t ht => hfits.materialize_offset hi ht⟩

/-- **The layout of a resolved model.** Its maps have names of their own, and its blocks are well
formed. Maps and blocks come in the order of the document, and a block lists what its entries
become, in their order. -/
theorem Model.ofSections_wellFormed {sections : List Yaml.Value} {m : Model}
    (h : Model.ofSections options sections = .ok m) :
    (m.memoryMaps.map (·.name)).Nodup ∧
      (∀ map ∈ m.memoryMaps, ∀ b ∈ map.blocks, b.WellFormed options) ∧
        ∃ d, Draft.ofSections options sections = .ok d ∧
          List.Forall₂ (MemoryMap.ListsInOrder d.templates) d.maps m.memoryMaps := by
  obtain ⟨d, hd, hm⟩ := bind_eq_ok_iff.mp h
  have hlists := d.resolve_lists m hm
  refine ⟨?_, fun map hmap block hblock => ⟨?_, ?_, ?_⟩, d, hd, hlists⟩
  · have hnames : d.maps.map (·.name) = m.memoryMaps.map (·.name) :=
      map_eq_map_iff_forall₂.mpr (hlists.imp fun _ _ hmap => hmap.1.symm)
    exact hnames ▸ Draft.ofSections_mapsNamed sections d hd
  · have hfrom := Model.ofSections_resolvedFrom options sections m h map hmap block hblock
    exact fun r hr => (hfrom.registers_from r hr).wellFormed
  · have hfrom := Model.ofSections_resolvedFrom options sections m h map hmap block hblock
    exact fun a ha t ht => (hfrom.templates_from a ha t ht).wellFormed
  · obtain ⟨dm, hdm, b, hb, hresolve⟩ := d.resolve_blocks options m hm map hmap block hblock
    obtain ⟨parent, n, hread⟩ := (Draft.ofSections_isRead sections d hd).blocks dm hdm b hb
    exact DraftBlock.resolve_arrays (readBlock_counts parent n b hread) block hresolve

/-! ### A block with a gap and an array -/

namespace GappedBlock

/-- A document whose block has a register, a gap, an array of two channels and a last register. -/
def document : List Yaml.Value :=
  [.map [(.str "memoryMaps", .seq [.map
    [(.str "name", .str "soc"), (.str "addressBlocks", .seq [.map
      [(.str "name", .str "unit"), (.str "offset", .int 0), (.str "registers", .seq
        [.map [(.str "name", .str "id")],
         .map [(.str "reserved", .int 4)],
         .map [(.str "name", .str "ch"), (.str "count", .int 2), (.str "stride", .int 16),
           (.str "registers", .seq [.map [(.str "name", .str "ctrl")],
             .map [(.str "name", .str "data"), (.str "fields", .seq
               [.map [(.str "name", .str "level"), (.str "width", .int 3)]])]])],
         .map [(.str "name", .str "last"), (.str "size", .int 16)]])]])]])]]

/-- The second template register of the array. -/
def data : Register :=
  { name := "data", offset := 4, width := 32, access := .readWrite,
    fields := [{ name := "level", bitOffset := 0, bitWidth := 3, access := .readWrite }] }

/-- The array of two channels. -/
def channels : RegisterArray :=
  { name := "ch", offset := 8, descriptor := { count := 2, stride := 16 },
    registers := [{ name := "ctrl", offset := 0, width := 32, access := .readWrite }, data] }

/-- The block: the array stands for its instances, between the plain registers. -/
def block : AddressBlock :=
  { name := "unit", baseOffset := 0, size := 64
    registers := [{ name := "id", offset := 0, width := 32, access := .readWrite }] ++
      channels.expand ++ [{ name := "last", offset := 40, width := 16, access := .readWrite }]
    arrays := [channels] }

/-- The model of the document. -/
def model : Model := { memoryMaps := [{ name := "soc", blocks := [block] }] }

/-- The document resolves, its block is well formed, and the second register of the second channel
is where stride and template put it. -/
theorem ofSections_wellFormed_channels :
    Model.ofSections {} document = .ok model ∧ block.WellFormed {} ∧
      channels.materialize 1 data ∈ block.registers ∧
        (channels.materialize 1 data).offset.toNat = 8 + 1 * 16 + 4 := by
  have hresolved : Model.ofSections {} document = .ok model :=
    eq_ok_of_toOption (by decide +kernel)
  obtain ⟨-, hblocks, -⟩ := Model.ofSections_wellFormed hresolved
  have hblock : block.WellFormed {} := hblocks _ List.mem_cons_self block List.mem_cons_self
  refine ⟨hresolved, hblock, by decide +kernel, ?_⟩
  exact (hblock.arrays channels List.mem_cons_self).offset_eq 1 (by decide) data (by decide)

end GappedBlock

end RegisterMap
