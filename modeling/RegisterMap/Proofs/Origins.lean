import RegisterMap.Document.Resolving
import RegisterMap.Proofs.Assembly

/-!
# Where Registers Come From

A register of a resolved model was read somewhere in the document: as an entry of a block, in the
body of an array, or in a template. Resolving gives it its offset, and an array gives its instances
names and offsets of their own, but nothing else about it changes on the way. What reading ensures
of every register of a draft therefore holds of every register of the model.

## Main results

* `readRegister_width`, `Register.From.width_supported` — the widths of registers.
* `readEntries_ensures` — what holds of every entry of a register list, from its kinds of entries.
* `Draft.ofSections_registers` — every register of a draft was read from the document.
* `DraftArray.resolve_resolvesTo` — what an array resolves to.
* `DraftBlock.resolve_from` — what the registers and arrays of a block come from.
* `Draft.resolve_blocks` — every block of the model was resolved from one of the draft.
* `Model.ofSections_resolvedFrom` — every register of a model was read from its document.
-/

namespace RegisterMap

/-! ### The registers of a draft -/

namespace DraftEntry

/-- The register that an entry is. -/
def register? : DraftEntry → Option DraftRegister
  | .register r => some r
  | _ => none

/-- The **registers of an entry**: itself, or those that an array lists. -/
def registers : DraftEntry → List DraftRegister
  | .register r => [r]
  | .reserved _ _ => []
  | .array a =>
    match a.body with
    | .inline entries => entries.filterMap register?
    | .template _ => []

/-- The register that an entry is, is one of its registers. -/
theorem mem_registers_of_register? {e : DraftEntry} {r : DraftRegister}
    (h : e.register? = some r) : r ∈ e.registers := by
  cases e with
  | register r' =>
      obtain rfl : r' = r := Option.some.inj h
      exact List.mem_singleton_self r'
  | reserved path bytes => nomatch h
  | array a => nomatch h

end DraftEntry

/-- All registers of the entries satisfy `Q`. -/
def OnRegisters (Q : DraftRegister → Prop) (entries : List DraftEntry) : Prop :=
  ∀ e ∈ entries, ∀ r ∈ e.registers, Q r

namespace Draft

/-- All registers of the blocks and templates satisfy `Q`. -/
structure OnRegisters (Q : DraftRegister → Prop) (d : Draft) : Prop where
  blocks : ∀ map ∈ d.maps, ∀ b ∈ map.blocks, RegisterMap.OnRegisters Q b.entries
  templates : ∀ t ∈ d.templates, RegisterMap.OnRegisters Q t.entries

end Draft

/-- The register was **read** from a value of the document. -/
def DraftRegister.IsRead (options : Options) (r : DraftRegister) : Prop :=
  ∃ parent n, readRegister options parent n = .ok r

/-! ### Reading -/

section Reading

variable {options : Options}

/-- A register that was read has one of the widths that a bus can transfer. -/
theorem readRegister_width (parent : String) (n : Located) :
    Ensures (readRegister options parent n) (·.width ∈ supportedWidths) := by
  refine .after fun name => .after fun size => ?_
  refine Ensures.check (k := fun _ => _) fun hwidth => ?_
  exact .after fun _ => .after fun _ => .after fun _ => .after fun _ => .after fun _ =>
    .after fun _ => .ok (Decidable.not_not.mp hwidth)

/-- What the gaps, the registers and the arrays of a list satisfy **holds of an entry** of it. -/
theorem readEntry_ensures {P : DraftEntry → Prop} {parent : String}
    {array : Located → Option Located → Checked DraftEntry} (item : Located)
    (harray : ∀ item generate, Ensures (array item generate) P)
    (hreserved : ∀ path bytes, P (.reserved path bytes))
    (hregister : ∀ r : DraftRegister, r.IsRead options → P (.register r)) :
    Ensures (readEntry options parent array item) P := by
  refine .after fun _ => ?_
  split
  · exact harray _ _
  · exact harray _ _
  · rw [readReserved]
    exact Ensures.check (k := fun _ => _) fun _ => .after fun bytes => .ok (hreserved _ bytes)
  · exact (Ensures.self _).bind fun r hr => .ok (hregister r ⟨_, _, hr⟩)

/-- In a list without arrays only gaps and registers count. -/
theorem readFlatEntries_ensures {P : DraftEntry → Prop}
    (hreserved : ∀ path bytes, P (.reserved path bytes))
    (hregister : ∀ r : DraftRegister, r.IsRead options → P (.register r))
    (parent : String) (list : Located) :
    Ensures (readFlatEntries options parent list) fun entries => ∀ e ∈ entries, P e :=
  .after fun _ => .mapM fun item _ =>
    readEntry_ensures item (fun _ _ => .failAt _ _) hreserved hregister

/-- The body of an array is **what was read of it**. -/
theorem readArrayParts_body {Q : ArrayBody DraftEntry → Prop} {n : Located} {name : String}
    {offsetKeys : List String} {body : Checked (ArrayBody DraftEntry)} (hbody : Ensures body Q) :
    Ensures (readArrayParts options n name offsetKeys body) fun a => Q a.body :=
  .after fun _ => .after fun _ => .after fun _ => .after fun _ => .after fun _ =>
    hbody.bind fun _ h => .ok h

/-- An array with registers of its own has **a body without arrays**. -/
theorem readInlineArray_body {Q : List DraftEntry → Prop}
    (hlist : ∀ parent list, Ensures (readFlatEntries options parent list) Q)
    (parent : String) (n : Located) :
    Ensures (readInlineArray options parent n) fun a =>
      ∃ entries, a.body = .inline entries ∧ Q entries := by
  refine .after fun name => .after fun list => readArrayParts_body (Q := fun body =>
    ∃ entries, body = .inline entries ∧ Q entries) ?_
  exact (hlist _ _).bind fun entries h => .ok ⟨entries, rfl, h⟩

/-- An array that repeats a template has the **template's name** as its body. -/
theorem readTemplateArray_body (parent : String) (n : Located) :
    Ensures (readTemplateArray options parent n) fun a =>
      ∃ template, a.body = .template template :=
  .after fun _ => .after fun _ => .after fun _ => .after fun template =>
    readArrayParts_body (Q := fun body => ∃ template, body = .template template)
      (.ok ⟨template, rfl⟩)

/-- What the gaps, the registers and both kinds of arrays satisfy holds of **all entries** of the
register list of a block. -/
theorem readEntries_ensures {P : DraftEntry → Prop}
    (hinline : ∀ parent n, Ensures (readInlineArray options parent n) fun a => P (.array a))
    (htemplate : ∀ parent n, Ensures (readTemplateArray options parent n) fun a => P (.array a))
    (hreserved : ∀ path bytes, P (.reserved path bytes))
    (hregister : ∀ r : DraftRegister, r.IsRead options → P (.register r))
    (parent : String) (list : Located) :
    Ensures (readEntries options parent list) fun entries => ∀ e ∈ entries, P e := by
  refine .after fun _ => .mapM fun item _ =>
    readEntry_ensures item (fun item generate => ?_) hreserved hregister
  cases generate with
  | some generate => exact (htemplate parent generate).bind fun _ h => .ok h
  | none => exact (hinline parent item).bind fun _ h => .ok h

/-- An entry that is a register has no other one. -/
theorem DraftRegister.IsRead.of_mem_singleton {r : DraftRegister} (h : r.IsRead options) :
    ∀ r' ∈ (DraftEntry.register r).registers, r'.IsRead options :=
  List.forall_mem_singleton.mpr h

/-- The registers of a template were read. -/
theorem readFlatEntries_registers (parent : String) (list : Located) :
    Ensures (readFlatEntries options parent list) (OnRegisters (·.IsRead options)) :=
  readFlatEntries_ensures (fun _ _ _ h => nomatch h) (fun _ h => h.of_mem_singleton) parent list

/-- So were those in the body of an array. -/
theorem readInlineArray_registers (parent : String) (n : Located) :
    Ensures (readInlineArray options parent n) fun a =>
      ∀ r ∈ (DraftEntry.array a).registers, r.IsRead options := by
  refine (readInlineArray_body readFlatEntries_registers parent n).imp fun a => ?_
  rintro ⟨entries, hentries, h⟩ r hr
  simp only [DraftEntry.registers, hentries, List.mem_filterMap] at hr
  obtain ⟨e, he, her⟩ := hr
  exact h e he r (DraftEntry.mem_registers_of_register? her)

/-- An array that names a template has no registers of its own. -/
theorem readTemplateArray_registers (parent : String) (n : Located) :
    Ensures (readTemplateArray options parent n) fun a =>
      ∀ r ∈ (DraftEntry.array a).registers, r.IsRead options := by
  refine (readTemplateArray_body parent n).imp fun a => ?_
  rintro ⟨template, ha⟩ r hr
  simp [DraftEntry.registers, ha] at hr

/-- The registers of a block were read, **those of its arrays included**. -/
theorem readEntries_registers (parent : String) (list : Located) :
    Ensures (readEntries options parent list) (OnRegisters (·.IsRead options)) :=
  readEntries_ensures readInlineArray_registers readTemplateArray_registers
    (fun _ _ _ h => nomatch h) (fun _ h => h.of_mem_singleton) parent list

/-- What a register list ensures holds of the entries of a block. -/
theorem readBlock_entries {Q : List DraftEntry → Prop}
    (hlist : ∀ parent list, Ensures (readEntries options parent list) Q) (hnil : Q [])
    (map : String) (n : Located) :
    Ensures (readBlock options map n) fun b => Q b.entries := by
  refine .after fun _ => .after fun _ => .after fun _ => ?_
  dsimp only
  -- The base offset is there or not, and so is the register list.
  split <;> refine .after fun _ => .after fun _ => ?_ <;> split
  · exact (hlist _ _).bind fun _ h => .after fun _ => .after fun _ => .ok h
  · exact (Ensures.ok hnil).bind fun _ h => .after fun _ => .after fun _ => .ok h
  · exact (hlist _ _).bind fun _ h => .after fun _ => .after fun _ => .ok h
  · exact (Ensures.ok hnil).bind fun _ h => .after fun _ => .after fun _ => .ok h

/-- So were the registers of a whole block. -/
theorem readBlock_registers (map : String) (n : Located) :
    Ensures (readBlock options map n) fun b => OnRegisters (·.IsRead options) b.entries :=
  readBlock_entries readEntries_registers (fun _ he => nomatch he) map n

/-- The registers of the draft were all read from the document. -/
abbrev Draft.Registered (options : Options) : Draft → Prop := OnRegisters (·.IsRead options)

/-- Every register of a draft was **read from its document**. -/
theorem Draft.ofSections_registers (sections : List Yaml.Value) :
    Ensures (ofSections options sections) (Registered options) := by
  refine (ofSections_isRead sections).imp fun d hd => ⟨fun map hmap b hb => ?_, fun t ht => ?_⟩
  · obtain ⟨parent, n, hn⟩ := hd.blocks map hmap b hb
    exact readBlock_registers parent n b hn
  · obtain ⟨parent, list, hlist⟩ := hd.templates t ht
    exact readFlatEntries_registers parent list _ hlist

end Reading

/-! ### Resolving -/

/-- The register is what `r` resolves to; an array may have given it a name and a place of its own.
-/
def DraftRegister.Yields (r : DraftRegister) (register : Register) : Prop :=
  ∃ cursor resolved, r.resolve cursor = .ok resolved ∧
    ∃ name offset arrayInstance, register = { resolved with name, offset, arrayInstance }

/-- The register comes from one of the draft that satisfies `Q`. -/
def Register.From (Q : DraftRegister → Prop) (register : Register) : Prop :=
  ∃ r, Q r ∧ r.Yields register

/-- The registers and arrays of a block, **as resolving leaves them**. -/
structure ResolvedFrom (Q : DraftRegister → Prop) (registers : List Register)
    (arrays : List RegisterArray) : Prop where
  registers_from : ∀ r ∈ registers, r.From Q
  templates_from : ∀ a ∈ arrays, ∀ t ∈ a.registers, t.From Q
  /-- The block lists the instances of its arrays. -/
  expanded : ∀ a ∈ arrays, ∀ r ∈ a.expand, r ∈ registers

/-- **What an array resolves to**: the registers of its body, at the stride that it gives or else at
the default for them, with the last instance within the address space. -/
structure DraftArray.ResolvesTo (templates : List DraftTemplate) (a : DraftArray DraftEntry)
    (cursor : Address) (array : RegisterArray) : Prop where
  registers_eq : ∃ entries, a.bodyEntries templates = .ok entries ∧
    resolveTemplate 0 entries = .ok array.registers
  stride_eq : a.strideFor array.span = .ok array.descriptor.stride
  count_eq : array.descriptor.count = a.count
  offset_eq : array.offset = a.offset.getD cursor
  fits : fitsAddressSpace array.descriptor.count array.descriptor.stride array.span
    array.offset = true

section Resolving

variable {Q : DraftRegister → Prop} {templates : List DraftTemplate}

/-- **Whatever an array resolves to** has the registers of its body, at its stride and within the
address space. -/
theorem DraftArray.resolve_resolvesTo (a : DraftArray DraftEntry) (cursor : Address) :
    Ensures (a.resolve templates cursor) (a.ResolvesTo templates cursor) := by
  refine (Ensures.self _).bind fun entries hentries => ?_
  refine (Ensures.self _).bind fun registers hregisters => ?_
  refine (Ensures.self _).bind fun stride hstride => ?_
  refine Ensures.check (k := fun _ => _) fun hfits => ?_
  exact .ok ⟨⟨entries, hentries, hregisters⟩, hstride, rfl, rfl,
    by simpa [RegisterArray.span] using hfits⟩

/-- A register comes from the one that was read. -/
theorem DraftRegister.resolve_from {r : DraftRegister} (h : Q r) (cursor : Address) :
    Ensures (r.resolve cursor) (·.From Q) :=
  (Ensures.self _).imp fun _ hr => ⟨r, h, cursor, _, hr, _, _, _, rfl⟩

/-- Its instances come from the same one. -/
theorem Register.From.materialize {t : Register} (h : t.From Q) (a : RegisterArray) (i : UInt64) :
    (a.materialize i t).From Q := by
  obtain ⟨r, hr, cursor, resolved, hresolve, name, offset, arrayInstance, rfl⟩ := h
  exact ⟨r, hr, cursor, resolved, hresolve, _, _, _, rfl⟩

/-- So do all the registers an array expands to. -/
theorem RegisterArray.expand_from {a : RegisterArray} (h : ∀ t ∈ a.registers, t.From Q) :
    ∀ r ∈ a.expand, r.From Q := by
  intro r hr
  obtain ⟨i, -, hr⟩ := List.mem_flatMap.mp hr
  unfold instance? at hr
  split at hr
  · obtain ⟨t, ht, rfl⟩ := List.mem_map.mp hr
    exact (h t ht).materialize a i
  · nomatch hr

/-- The registers of a template satisfy what each register of it **ensures wherever it is placed**.
-/
theorem resolveTemplate_ensures {P : Register → Prop} {entries : List DraftEntry}
    (h : ∀ r, .register r ∈ entries → ∀ cursor, Ensures (r.resolve cursor) P) (cursor : Address) :
    Ensures (resolveTemplate cursor entries) fun ts => ∀ t ∈ ts, P t := by
  induction entries generalizing cursor with
  | nil => exact .ok (by simp)
  | cons e entries ih =>
      have hentries : ∀ r, .register r ∈ entries → ∀ cursor, Ensures (r.resolve cursor) P :=
        fun r hr => h r (List.mem_cons_of_mem e hr)
      cases e with
      | register r =>
          refine (h r List.mem_cons_self cursor).bind fun t ht => ?_
          exact (ih hentries _).bind fun ts hts => .ok (List.forall_mem_cons.mpr ⟨ht, hts⟩)
      | reserved path bytes => exact ih hentries _
      | array a => exact .failAt _ _

/-- The registers of a template come **from its entries**. -/
theorem resolveTemplate_from {entries : List DraftEntry} (cursor : Address)
    (h : ∀ r ∈ entries.filterMap (·.register?), Q r) :
    Ensures (resolveTemplate cursor entries) fun ts => ∀ t ∈ ts, t.From Q := by
  refine resolveTemplate_ensures (fun r hr => DraftRegister.resolve_from (h r ?_)) cursor
  exact List.mem_filterMap.mpr ⟨.register r, hr, rfl⟩

/-- What an array repeats is **its own list or that of a template**. -/
theorem DraftArray.bodyEntries_ensures {P : List DraftEntry → Prop} {a : DraftArray DraftEntry}
    (hinline : ∀ entries, a.body = .inline entries → P entries)
    (htemplates : ∀ t ∈ templates, P t.entries) : Ensures (a.bodyEntries templates) P := by
  rw [bodyEntries]
  split
  · next entries hbody => exact .ok (hinline entries hbody)
  · split
    · next t ht => exact .ok (htemplates t (List.mem_of_find?_eq_some ht))
    · exact .failAt _ _

/-- An array takes its entries from its own body, or from **the template it names**. -/
theorem DraftArray.bodyEntries_registers {a : DraftArray DraftEntry}
    (ha : ∀ r ∈ (DraftEntry.array a).registers, Q r)
    (htemplates : ∀ t ∈ templates, OnRegisters Q t.entries) :
    Ensures (a.bodyEntries templates) fun entries =>
      ∀ r ∈ entries.filterMap (·.register?), Q r := by
  refine bodyEntries_ensures (fun entries hbody => ?_) fun t ht r hr => ?_
  · simp only [DraftEntry.registers, hbody] at ha
    exact ha
  · obtain ⟨e, he, her⟩ := List.mem_filterMap.mp hr
    exact htemplates t ht e he r (DraftEntry.mem_registers_of_register? her)

/-- The registers of an array come from these entries. -/
theorem DraftArray.resolve_from {a : DraftArray DraftEntry} (cursor : Address)
    (ha : ∀ r ∈ (DraftEntry.array a).registers, Q r)
    (htemplates : ∀ t ∈ templates, OnRegisters Q t.entries) :
    Ensures (a.resolve templates cursor) fun array => ∀ t ∈ array.registers, t.From Q := by
  refine (a.resolve_resolvesTo cursor).imp fun array harray => ?_
  obtain ⟨entries, hentries, hregisters⟩ := harray.registers_eq
  exact resolveTemplate_from 0 (bodyEntries_registers ha htemplates entries hentries) _ hregisters

/-- The registers and the arrays of a block come **from the entries of its list**. -/
theorem resolveEntries_from {entries : List DraftEntry} (cursor : Address)
    (h : OnRegisters Q entries) (htemplates : ∀ t ∈ templates, OnRegisters Q t.entries) :
    Ensures (resolveEntries templates cursor entries) fun p => ResolvedFrom Q p.1 p.2 := by
  induction entries generalizing cursor with
  | nil => exact .ok ⟨by simp, by simp, by simp⟩
  | cons e entries ih =>
      obtain ⟨he, hentries⟩ := List.forall_mem_cons.mp h
      cases e with
      | register r =>
          have hr : Q r := he r (List.mem_singleton_self r)
          refine (DraftRegister.resolve_from hr cursor).bind fun register hregister => ?_
          refine (ih _ hentries).bind fun p hp => .ok ⟨?_, hp.templates_from, ?_⟩
          · exact List.forall_mem_cons.mpr ⟨hregister, hp.registers_from⟩
          · exact fun a ha r' hr' => List.mem_cons_of_mem register (hp.expanded a ha r' hr')
      | reserved path bytes => exact ih _ hentries
      | array a =>
          refine (DraftArray.resolve_from cursor he htemplates).bind fun array harray => ?_
          refine (ih _ hentries).bind fun p hp => .ok ⟨?_, ?_, ?_⟩
          · exact List.forall_mem_append.mpr
              ⟨RegisterArray.expand_from harray, hp.registers_from⟩
          · exact List.forall_mem_cons.mpr ⟨harray, hp.templates_from⟩
          · refine List.forall_mem_cons.mpr ⟨fun r hr => List.mem_append_left _ hr, ?_⟩
            exact fun a ha r hr => List.mem_append_right _ (hp.expanded a ha r hr)

/-- What the registers and arrays of a block **come from**. -/
theorem DraftBlock.resolve_from {options : Options} {b : DraftBlock}
    (h : OnRegisters Q b.entries) (htemplates : ∀ t ∈ templates, OnRegisters Q t.entries) :
    Ensures (b.resolve options templates)
      fun block => ResolvedFrom Q block.registers block.arrays :=
  (resolveEntries_from 0 h htemplates).bind fun _ hp => .ok hp

end Resolving

/-- The width of a register is **one that is supported**, wherever it comes from. -/
theorem Register.From.width_supported {options : Options} {register : Register}
    (h : register.From (·.IsRead options)) : register.width ∈ supportedWidths := by
  obtain ⟨r, ⟨parent, n, hread⟩, cursor, resolved, hresolve, name, offset, arrayInstance, rfl⟩ := h
  have hwidth : Ensures (r.resolve cursor) (·.width = r.width) := .after fun _ => .ok rfl
  exact hwidth resolved hresolve ▸ readRegister_width parent n r hread

/-! ### Models -/

/-- Every block of the model was **resolved from a block** of the draft. -/
theorem Draft.resolve_blocks (options : Options) (d : Draft) :
    Ensures (d.resolve options) fun m => ∀ map ∈ m.memoryMaps, ∀ block ∈ map.blocks,
      ∃ dm ∈ d.maps, ∃ b ∈ dm.blocks, b.resolve options d.templates = .ok block := by
  refine Ensures.bind (Ensures.mapM fun dm hdm => ?_) fun maps hmaps => .ok hmaps
  refine Ensures.bind (Ensures.mapM fun b hb => ?_) fun blocks hblocks => .ok hblocks
  exact (Ensures.self _).imp fun block hblock => ⟨dm, hdm, b, hb, hblock⟩

/-- Every register of a model, and every template of its arrays, **was read** from the document. -/
theorem Model.ofSections_resolvedFrom (options : Options) (sections : List Yaml.Value) :
    Ensures (Model.ofSections options sections) fun m => ∀ map ∈ m.memoryMaps,
      ∀ block ∈ map.blocks, ResolvedFrom (·.IsRead options) block.registers block.arrays := by
  refine (Draft.ofSections_registers sections).bind fun d hd => ?_
  refine (d.resolve_blocks options).imp fun m hm map hmap block hblock => ?_
  obtain ⟨dm, hdm, b, hb, hresolve⟩ := hm map hmap block hblock
  exact DraftBlock.resolve_from (hd.blocks dm hdm b hb) hd.templates block hresolve

end RegisterMap
