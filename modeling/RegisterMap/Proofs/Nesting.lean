import RegisterMap.Proofs.Layout

/-!
# Arrays Are Not Nested

What an array repeats are registers and gaps, never another array. The drafts do not say so: the
body of an array and a template are register lists as any other, in which an array is an entry like
the rest. It is the reading that keeps them flat, whichever of its two keys gives an array away, and
in both shapes of a document: the body of an array and the body of a template are read by a reader
of their own, which turns arrays down.

So resolving never comes to an array in an array, although it is prepared for one. The way there
leads through the body of an array or through the table of templates, and both are flat.

## Main results

* `readFlatEntries_flat`, `readEntries_oneLevel` — what is read for templates, bodies and blocks.
* `Draft.ofSections_oneLevel` — the drafts of documents.
* `resolveTemplate_failsWith` — a flat list has no nested array to fail on.
* `Draft.OneLevel.resolve_failsWith` — nor has a whole draft.
* `Draft.ofSections_unnested` — nesting in drafts, in their resolution and in models.
-/

namespace RegisterMap

variable {options : Options} {templates : List DraftTemplate}

/-- The list has **no arrays**. -/
def Flat (entries : List DraftEntry) : Prop := ∀ e ∈ entries, e.isArray = false

/-- If the entry is an array that lists its registers, then it **lists no arrays**. -/
def DraftEntry.OneLevel (e : DraftEntry) : Prop :=
  ∀ a entries, e = .array a → a.body = .inline entries → Flat entries

/-- **One level of replication**: no template has arrays, and no array that a block has. -/
structure Draft.OneLevel (d : Draft) : Prop where
  blocks : ∀ map ∈ d.maps, ∀ b ∈ map.blocks, ∀ e ∈ b.entries, e.OneLevel
  templates : ∀ t ∈ d.templates, Flat t.entries

/-! ### Reading -/

/-- A list that is read for a template or an array **is flat**. -/
theorem readFlatEntries_flat (parent : String) (list : Located) :
    Ensures (readFlatEntries options parent list) Flat :=
  readFlatEntries_ensures (fun _ _ => rfl) (fun _ _ => rfl) parent list

/-- An array with its template in place **lists no array**. -/
theorem readInlineArray_oneLevel (parent : String) (n : Located) :
    Ensures (readInlineArray options parent n) fun a => (DraftEntry.array a).OneLevel := by
  refine (readInlineArray_body readFlatEntries_flat parent n).imp ?_
  rintro a ⟨entries, hbody, hflat⟩ _ entries' ⟨⟩ hbody'
  obtain rfl : entries = entries' := ArrayBody.inline.inj (hbody.symm.trans hbody')
  exact hflat

/-- An array that names a template lists nothing at all. -/
theorem readTemplateArray_oneLevel (parent : String) (n : Located) :
    Ensures (readTemplateArray options parent n) fun a => (DraftEntry.array a).OneLevel := by
  refine (readTemplateArray_body parent n).imp ?_
  rintro a ⟨template, hbody⟩ _ entries ⟨⟩ hbody'
  nomatch hbody.symm.trans hbody'

/-- A list that is read for a block has arrays, but **none within them**. -/
theorem readEntries_oneLevel (parent : String) (list : Located) :
    Ensures (readEntries options parent list) fun entries => ∀ e ∈ entries, e.OneLevel :=
  readEntries_ensures readInlineArray_oneLevel readTemplateArray_oneLevel
    (fun _ _ _ _ h => nomatch h) (fun _ _ _ _ h => nomatch h) parent list

/-- Every draft of a document, in either shape, has **one level of replication**. -/
theorem Draft.ofSections_oneLevel (sections : List Yaml.Value) :
    Ensures (ofSections options sections) OneLevel := by
  refine (ofSections_isRead sections).imp fun d hd => ⟨fun map hmap b hb => ?_, fun t ht => ?_⟩
  · obtain ⟨parent, n, hread⟩ := hd.blocks map hmap b hb
    exact readBlock_entries readEntries_oneLevel (fun _ he => nomatch he) parent n b hread
  · obtain ⟨parent, list, hread⟩ := hd.templates t ht
    exact readFlatEntries_flat parent list _ hread

/-! ### What resolving fails with -/

/-- Every problem but a **nested array**. -/
abbrev Unnested (problem : Problem) : Prop := problem ≠ .nestedArray

/-- No field fails for being nested. -/
theorem FieldPlacer.place_unnested {p p' : FieldPlacer} {placement : Placement} {problem : Problem}
    (h : p.place placement = (.error problem, p')) : Unnested problem := by
  rw [place] at h
  split at h
  · next e hspan =>
    obtain rfl : e = problem := Except.error.inj (Prod.mk.inj h).1
    cases placement with
    | range text =>
        rw [spanOf] at hspan
        split at hspan
        · cases hspan
        · cases hspan
          simp
    | explicit offset width => cases hspan
    | auto width => cases hspan
  · split at h
    · cases h
      simp
    · cases h

/-- Nor do the fields of a register. -/
theorem placeFields_failsWith (access : AccessPolicy) (placer : FieldPlacer)
    (fields : List DraftField) : FailsWith Unnested (placeFields access placer fields) := by
  induction fields generalizing placer with
  | nil => exact .ok []
  | cons f fields ih =>
      rw [placeFields]
      split
      · next hplace => exact .failAt (FieldPlacer.place_unnested hplace)
      · exact (ih _).bind fun _ _ => .ok _

/-- Nor does a register. -/
theorem DraftRegister.resolve_failsWith (r : DraftRegister) (cursor : Address) :
    FailsWith Unnested (r.resolve cursor) :=
  (placeFields_failsWith _ _ _).bind fun _ _ => .ok _

/-- A flat list has **no nested array to fail on**, wherever it is placed. -/
theorem resolveTemplate_failsWith {entries : List DraftEntry} (hflat : Flat entries)
    (cursor : Address) : FailsWith Unnested (resolveTemplate cursor entries) := by
  induction entries generalizing cursor with
  | nil => exact .ok []
  | cons e entries ih =>
      obtain ⟨he, hentries⟩ := List.forall_mem_cons.mp hflat
      cases e with
      | register r =>
          refine (r.resolve_failsWith cursor).bind fun register _ => ?_
          exact (ih hentries _).bind fun _ _ => .ok _
      | reserved path bytes => exact ih hentries _
      | array nested => nomatch he

/-- The entries that an array repeats are **flat**: its own, or those of a template. -/
theorem DraftEntry.OneLevel.bodyEntries_flat {a : DraftArray DraftEntry}
    (ha : (DraftEntry.array a).OneLevel) (htemplates : ∀ t ∈ templates, Flat t.entries) :
    Ensures (a.bodyEntries templates) Flat :=
  DraftArray.bodyEntries_ensures (fun entries hbody => ha a entries rfl hbody) htemplates

/-- Looking a template up fails for its name only. -/
theorem DraftArray.bodyEntries_failsWith (a : DraftArray DraftEntry) :
    FailsWith Unnested (a.bodyEntries templates) := by
  rw [bodyEntries]
  split
  · exact .ok _
  · split
    · exact .ok _
    · exact .failAt (by simp)

/-- The stride of an array fails for being too large only. -/
theorem DraftArray.strideFor_failsWith (a : DraftArray DraftEntry) (span : UInt64) :
    FailsWith Unnested (a.strideFor span) := by
  rw [strideFor]
  split
  · exact .ok _
  · exact .failAt (by simp)

/-- An array does not fail for being nested **if its body and all templates are flat**. -/
theorem DraftEntry.OneLevel.resolve_failsWith {a : DraftArray DraftEntry}
    (ha : (DraftEntry.array a).OneLevel) (htemplates : ∀ t ∈ templates, Flat t.entries)
    (cursor : Address) : FailsWith Unnested (a.resolve templates cursor) := by
  refine a.bodyEntries_failsWith.bind fun entries hentries => ?_
  have hflat := ha.bodyEntries_flat htemplates entries hentries
  refine (resolveTemplate_failsWith hflat 0).bind fun registers _ => ?_
  refine (a.strideFor_failsWith _).bind fun stride _ => ?_
  exact FailsWith.check (k := fun _ => _) (by simp) (.ok _)

/-- Nor do the entries of a block. -/
theorem resolveEntries_failsWith {entries : List DraftEntry} (h : ∀ e ∈ entries, e.OneLevel)
    (htemplates : ∀ t ∈ templates, Flat t.entries) (cursor : Address) :
    FailsWith Unnested (resolveEntries templates cursor entries) := by
  induction entries generalizing cursor with
  | nil => exact .ok _
  | cons e entries ih =>
      obtain ⟨he, hentries⟩ := List.forall_mem_cons.mp h
      cases e with
      | register r =>
          refine (r.resolve_failsWith cursor).bind fun register _ => ?_
          exact (ih hentries _).bind fun _ _ => .ok _
      | reserved path bytes => exact ih hentries _
      | array a =>
          refine (he.resolve_failsWith htemplates cursor).bind fun array _ => ?_
          exact (ih hentries _).bind fun _ _ => .ok _

/-- A draft with one level of replication **never fails on a nested array**. -/
theorem Draft.OneLevel.resolve_failsWith {d : Draft} (h : d.OneLevel) :
    FailsWith Unnested (d.resolve options) := by
  refine (FailsWith.mapM fun map hmap => ?_).bind fun _ _ => .ok _
  refine (FailsWith.mapM fun b hb => ?_).bind fun _ _ => .ok _
  exact (resolveEntries_failsWith (h.blocks map hmap b hb) h.templates 0).bind fun _ _ => .ok _

/-! ### The registers of a template -/

/-- A register by itself is of no array. -/
theorem DraftRegister.resolve_arrayInstance (r : DraftRegister) (cursor : Address) :
    Ensures (r.resolve cursor) (·.arrayInstance = none) :=
  .after fun _ => .ok rfl

/-- The registers that an array keeps are **of no instance**. -/
theorem DraftArray.resolve_arrayInstance (a : DraftArray DraftEntry) (cursor : Address) :
    Ensures (a.resolve templates cursor) fun array =>
      ∀ t ∈ array.registers, t.arrayInstance = none := by
  refine (a.resolve_resolvesTo cursor).imp fun array harray => ?_
  obtain ⟨entries, -, hregisters⟩ := harray.registers_eq
  exact resolveTemplate_ensures (fun r _ => r.resolve_arrayInstance) 0 _ hregisters

/-! ### Documents -/

/-- **One level of replication.** In the draft of any document, neither a template nor the body of
an array has an array in it. No array of the draft can therefore fail on a nested one, wherever the
registers that it repeats come from, and the draft as a whole never does. The registers that the
arrays of its model keep as their template belong to no instance. -/
theorem Draft.ofSections_unnested {sections : List Yaml.Value} {d : Draft}
    (h : ofSections options sections = .ok d) :
    d.OneLevel ∧
    (∀ map ∈ d.maps, ∀ b ∈ map.blocks, ∀ a, .array a ∈ b.entries → ∀ entries,
      a.bodyEntries d.templates = .ok entries → ∀ cursor e,
        resolveTemplate cursor entries = .error e → e.problem ≠ .nestedArray) ∧
    (∀ e, d.resolve options = .error e → e.problem ≠ .nestedArray) ∧
    ∀ m, d.resolve options = .ok m → ∀ map ∈ m.memoryMaps, ∀ b ∈ map.blocks, ∀ a ∈ b.arrays,
      ∀ t ∈ a.registers, t.arrayInstance = none := by
  have hlevel : d.OneLevel := ofSections_oneLevel sections d h
  refine ⟨hlevel, ?_, hlevel.resolve_failsWith, ?_⟩
  · intro map hmap b hb a ha entries hentries cursor
    have hflat := (hlevel.blocks map hmap b hb _ ha).bodyEntries_flat hlevel.templates
    exact resolveTemplate_failsWith (hflat entries hentries) cursor
  · intro m hm map hmap block hblock array harray
    obtain ⟨dm, -, b, -, hresolve⟩ := d.resolve_blocks options m hm map hmap block hblock
    obtain ⟨a, -, cursor, hresolve⟩ := b.resolve_array block hresolve array harray
    exact a.resolve_arrayInstance cursor array hresolve

/-! ### A block with both kinds of arrays -/

namespace BothKinds

open Yaml (Value)

/-- A legacy document whose block repeats a template and an array of its own. -/
def document : List Value :=
  [.map [(.str "registerTemplates", .map [(.str "channel", .seq
      [.map [(.str "name", .str "ctrl")], .map [(.str "reserved", .int 4)]])]),
    (.str "memoryMap", .map
      [(.str "name", .str "soc"), (.str "addressBlocks", .seq [.map
        [(.str "name", .str "unit"), (.str "offset", .int 0), (.str "registers", .seq
          [.map [(.str "generateArray", .map [(.str "name", .str "ch"),
            (.str "template", .str "channel"), (.str "count", .int 2)])],
           .map [(.str "name", .str "port"), (.str "count", .int 3), (.str "registers", .seq
             [.map [(.str "name", .str "data"), (.str "size", .int 8)]])]])]])])]]

/-- A register of the draft, without an offset and without fields. -/
def register (path name : String) (width : UInt32) : DraftRegister :=
  { path, name, description := none, offset := none, width, access := .readWrite,
    resetValue := none, fields := [] }

/-- The template: a register and a gap. -/
def channel : DraftTemplate :=
  { name := "channel", path := "<section 0>.registerTemplates.channel"
    entries :=
      [.register (register "<section 0>.registerTemplates.channel.ctrl" "ctrl" 32),
        .reserved "<section 0>.registerTemplates.channel[1]" 4] }

/-- An array of the draft that leaves out all but its name, its count and its body. -/
def array (name : String) (count : UInt64) (body : ArrayBody DraftEntry) :
    DraftArray DraftEntry :=
  { path := s!"soc.unit.{name}", name, offset := none, count, stride := none, indexStart := 0,
    naming := none, body }

/-- The array that repeats the template. -/
def channels : DraftArray DraftEntry := array "ch" 2 (.template "channel")

/-- The array that lists a register itself. -/
def ports : DraftArray DraftEntry :=
  array "port" 3 (.inline [.register (register "soc.unit.port.data" "data" 8)])

/-- The draft of the document. -/
def draft : Draft :=
  { shape := .legacy
    templates := [channel]
    maps := [{ name := "soc", description := none, blocks :=
      [{ path := "soc.unit", name := "unit", description := none, baseOffset := 0, size := none,
         usage := .register, entries := [.array channels, .array ports] }] }] }

/-- What the array that repeats the template resolves to. -/
def twoChannels : RegisterArray :=
  { name := "ch", offset := 0, descriptor := { count := 2, stride := 4 },
    registers := [{ name := "ctrl", offset := 0, width := 32, access := .readWrite }] }

/-- What the other array resolves to. -/
def threePorts : RegisterArray :=
  { name := "port", offset := 8, descriptor := { count := 3, stride := 1 },
    registers := [{ name := "data", offset := 0, width := 8, access := .readWrite }] }

/-- The block of both arrays. -/
def block : AddressBlock :=
  { name := "unit", baseOffset := 0, size := 64
    registers := twoChannels.expand ++ threePorts.expand
    arrays := [twoChannels, threePorts] }

/-- The model of the document. -/
def model : Model := { memoryMaps := [{ name := "soc", blocks := [block] }] }

/-- The arrays list no arrays, the template of the first one does not fail on a nested array, and
the registers that the model keeps for both belong to no instance. -/
theorem ofSections_unnested_both :
    Draft.ofSections {} document = .ok draft ∧ draft.resolve {} = .ok model ∧ draft.OneLevel ∧
      (∀ cursor e, resolveTemplate cursor channel.entries = .error e →
        e.problem ≠ .nestedArray) ∧
      ∀ a ∈ [twoChannels, threePorts], ∀ t ∈ a.registers, t.arrayInstance = none := by
  have hdraft : Draft.ofSections {} document = .ok draft := rfl
  have hmodel : draft.resolve {} = .ok model := eq_ok_of_toOption (by decide +kernel)
  obtain ⟨hlevel, hbodies, -, hinstances⟩ := Draft.ofSections_unnested hdraft
  refine ⟨hdraft, hmodel, hlevel, ?_, ?_⟩
  · exact hbodies _ List.mem_cons_self _ List.mem_cons_self channels List.mem_cons_self
      channel.entries rfl
  · exact hinstances model hmodel _ List.mem_cons_self block List.mem_cons_self

end BothKinds

end RegisterMap
