import RegisterMap.Document.Resolving
import RegisterMap.Proofs.Assembly
import RegisterMap.Proofs.Refines

/-!
# Drafts That Resolve Alike

A draft carries the paths of its parts, which only messages use, and the templates in the order in
which they were read, which a lookup by name does not see. Two drafts that differ in nothing else
are **alike**, and what one of them resolves to the other one resolves to as well.

## Conventions

Fields, blocks and maps are alike if they are equal up to paths. Registers and array bodies are
compared by what they resolve to, wherever they are placed, so that no recursion into the body of an
array is needed.

## Main results

* `resolveEntries_refines` — register lists resolve alike if their entries do.
* `Draft.Like.resolve` — drafts that are alike resolve alike.
* `DraftParts.Like.ofParts` — parts that are alike make drafts that are alike.
-/

namespace RegisterMap

/-! ### Fields and registers -/

/-- The same field at another path. -/
def DraftField.Like (f f' : DraftField) : Prop := ∃ path, f' = { f with path }

/-- A register that **resolves to the same** at every cursor. -/
def DraftRegister.Like (r r' : DraftRegister) : Prop :=
  ∀ cursor, Refines Eq (r.resolve cursor) (r'.resolve cursor)

/-- Fields that are alike are placed **at the same bits**. -/
theorem placeFields_like {fields fields' : List DraftField}
    (h : List.Forall₂ DraftField.Like fields fields') (access : AccessPolicy)
    (placer : FieldPlacer) :
    Refines Eq (placeFields access placer fields) (placeFields access placer fields') := by
  induction h generalizing placer with
  | nil => exact .refl _
  | cons hf _ ih =>
      obtain ⟨path, rfl⟩ := hf
      simp only [placeFields]
      split
      · exact .failAt _ _
      · exact (ih _).bindEq fun _ => .refl _

/-- Registers with the same contents and fields that are alike **resolve alike**. -/
theorem DraftRegister.like_of_fields {r r' : DraftRegister} {path : String}
    {fields : List DraftField} (hr : r' = { r with path, fields })
    (h : List.Forall₂ DraftField.Like r.fields fields) : r.Like r' := by
  subst hr
  exact fun cursor => (placeFields_like h _ _).bindEq fun _ => .refl _

/-! ### Register lists -/

/-- Bodies that repeat the same: templates of one name, or entries that resolve alike. -/
inductive ArrayBody.Like : ArrayBody DraftEntry → ArrayBody DraftEntry → Prop
  | inline {entries entries' : List DraftEntry}
      (h : Refines Eq (resolveTemplate 0 entries) (resolveTemplate 0 entries')) :
      Like (.inline entries) (.inline entries')
  | template (name : String) : Like (.template name) (.template name)

/-- The same array at another path, with a body that is alike. -/
def DraftArray.Like (a a' : DraftArray DraftEntry) : Prop :=
  ∃ path body, a' = { a with path, body } ∧ a.body.Like body

/-- **Entries that are alike**: registers, gaps of one size, or arrays. -/
inductive DraftEntry.Like : DraftEntry → DraftEntry → Prop
  | register {r r' : DraftRegister} (h : r.Like r') : Like (.register r) (.register r')
  | reserved (path path' : String) (bytes : UInt64) :
      Like (.reserved path bytes) (.reserved path' bytes)
  | array {a a' : DraftArray DraftEntry} (h : a.Like a') : Like (.array a) (.array a')

/-- Templates of one name whose entries are alike. -/
def DraftTemplate.Like (t t' : DraftTemplate) : Prop :=
  t'.name = t.name ∧ List.Forall₂ DraftEntry.Like t.entries t'.entries

/-- Templates that are alike are **found under every name**, or none. -/
def TemplatesLike (templates templates' : List DraftTemplate) : Prop :=
  ∀ name, Option.Rel DraftTemplate.Like (templates.find? (·.name == name))
    (templates'.find? (·.name == name))

variable {entries entries' : List DraftEntry} {templates templates' : List DraftTemplate}

/-- A body is like itself. -/
theorem ArrayBody.Like.refl : ∀ body : ArrayBody DraftEntry, body.Like body
  | .inline _ => .inline (.refl _)
  | .template name => .template name

/-- An entry is **like itself**. -/
theorem DraftEntry.Like.refl : ∀ e : DraftEntry, e.Like e
  | .register _ => .register fun _ => .refl _
  | .reserved path bytes => .reserved path path bytes
  | .array a => .array ⟨a.path, a.body, rfl, .refl _⟩

/-- A template is like itself. -/
theorem DraftTemplate.Like.refl (t : DraftTemplate) : t.Like t :=
  ⟨rfl, List.forall₂_same.mpr fun e _ => .refl e⟩

/-- Templates that are alike resolve to **the same registers**. -/
theorem resolveTemplate_like (h : List.Forall₂ DraftEntry.Like entries entries')
    (cursor : Address) :
    Refines Eq (resolveTemplate cursor entries) (resolveTemplate cursor entries') := by
  induction h generalizing cursor with
  | nil => exact .refl _
  | cons he _ ih =>
      cases he with
      | register hr => exact (hr cursor).bindEq fun _ => (ih _).bindEq fun _ => .refl _
      | reserved path path' bytes => exact ih _
      | array ha => exact .failAt _ _

/-- The entries that an instance consists of are found, and they resolve alike. -/
theorem DraftArray.Like.bodyEntries {a a' : DraftArray DraftEntry} (h : a.Like a')
    (htemplates : TemplatesLike templates templates') :
    Refines (fun es es' => Refines Eq (resolveTemplate 0 es) (resolveTemplate 0 es'))
      (a.bodyEntries templates) (a'.bodyEntries templates') := by
  obtain ⟨path, body, rfl, hbody⟩ := h
  simp only [DraftArray.bodyEntries]
  generalize a.body = abody at hbody
  cases hbody with
  | inline h => exact .ok h
  | template name =>
      have hfind := htemplates name
      dsimp only
      generalize templates.find? (·.name == name) = found at hfind ⊢
      generalize templates'.find? (·.name == name) = found' at hfind ⊢
      cases hfind with
      | none => exact .failAt _ _
      | some hlike => exact .ok (resolveTemplate_like hlike.2 0)

/-- The stride of an array does not depend on **where it is**. -/
theorem DraftArray.strideFor_refines (a : DraftArray DraftEntry) (path : String)
    (body : ArrayBody DraftEntry) (span : UInt64) :
    Refines Eq (a.strideFor span) ({ a with path, body }.strideFor span) := by
  simp only [DraftArray.strideFor]
  cases a.stride.or (defaultStride? span) with
  | some stride => exact .refl _
  | none => exact .failAt _ _

/-- An array **resolves by its body**: where it is and what it is called in messages do not
count. -/
theorem DraftArray.resolve_refines {a : DraftArray DraftEntry} {path : String}
    {body : ArrayBody DraftEntry}
    (h : Refines (fun es es' => Refines Eq (resolveTemplate 0 es) (resolveTemplate 0 es'))
      (a.bodyEntries templates) ({ a with path, body }.bodyEntries templates'))
    (cursor : Address) :
    Refines Eq (a.resolve templates cursor)
      ({ a with path, body }.resolve templates' cursor) :=
  h.bind fun _ _ hes => hes.bindEq fun _ => (a.strideFor_refines path body _).bindEq fun _ =>
    .check (.refl _)

/-- Arrays that are alike resolve to **the same array**. -/
theorem DraftArray.Like.resolve {a a' : DraftArray DraftEntry} (h : a.Like a')
    (htemplates : TemplatesLike templates templates') (cursor : Address) :
    Refines Eq (a.resolve templates cursor) (a'.resolve templates' cursor) := by
  have hentries := h.bodyEntries htemplates
  obtain ⟨path, body, rfl, -⟩ := h
  exact DraftArray.resolve_refines hentries cursor

/-- Entries that **resolve to the same** at every cursor, each with templates of its own. -/
inductive DraftEntry.ResolvesLike (templates templates' : List DraftTemplate) :
    DraftEntry → DraftEntry → Prop
  | register {r r' : DraftRegister} (h : r.Like r') :
      ResolvesLike templates templates' (.register r) (.register r')
  | reserved (path path' : String) (bytes : UInt64) :
      ResolvesLike templates templates' (.reserved path bytes) (.reserved path' bytes)
  | array {a a' : DraftArray DraftEntry}
      (h : ∀ cursor, Refines Eq (a.resolve templates cursor) (a'.resolve templates' cursor)) :
      ResolvesLike templates templates' (.array a) (.array a')

/-- Entries that are alike resolve alike, at any place. -/
theorem DraftEntry.Like.resolvesLike {e e' : DraftEntry} (h : e.Like e')
    (htemplates : TemplatesLike templates templates') : ResolvesLike templates templates' e e' := by
  cases h with
  | register hr => exact .register hr
  | reserved path path' bytes => exact .reserved path path' bytes
  | array ha => exact .array (ha.resolve htemplates)

/-- Register lists **resolve entry by entry**. -/
theorem resolveEntries_refines
    (h : List.Forall₂ (DraftEntry.ResolvesLike templates templates') entries entries')
    (cursor : Address) :
    Refines Eq (resolveEntries templates cursor entries)
      (resolveEntries templates' cursor entries') := by
  induction h generalizing cursor with
  | nil => exact .refl _
  | cons he _ ih =>
      cases he with
      | register hr => exact (hr cursor).bindEq fun _ => (ih _).bindEq fun _ => .refl _
      | reserved path path' bytes => exact ih _
      | array ha => exact (ha cursor).bindEq fun _ => (ih _).bindEq fun _ => .refl _

/-! ### Blocks, maps and drafts -/

/-- The same block at another path, with related entries. -/
def DraftBlock.Rel (R : DraftEntry → DraftEntry → Prop) (b b' : DraftBlock) : Prop :=
  ∃ path entries, b' = { b with path, entries } ∧ List.Forall₂ R b.entries entries

/-- The same map with blocks whose entries are related. -/
def DraftMap.Rel (R : DraftEntry → DraftEntry → Prop) (m m' : DraftMap) : Prop :=
  ∃ blocks, m' = { m with blocks } ∧ List.Forall₂ (DraftBlock.Rel R) m.blocks blocks

/-- The same block at another path, with entries that are alike. -/
abbrev DraftBlock.Like : DraftBlock → DraftBlock → Prop := DraftBlock.Rel DraftEntry.Like

/-- The same map with blocks that are alike. -/
abbrev DraftMap.Like : DraftMap → DraftMap → Prop := DraftMap.Rel DraftEntry.Like

/-- A memory map is like itself. -/
theorem DraftMap.Like.refl (m : DraftMap) : m.Like m :=
  ⟨m.blocks, rfl, List.forall₂_same.mpr fun b _ =>
    ⟨b.path, b.entries, rfl, List.forall₂_same.mpr fun e _ => .refl e⟩⟩

section Related

variable {R : DraftEntry → DraftEntry → Prop} {options : Options}

/-- Related maps have **one name**. -/
theorem DraftMap.Rel.name {m m' : DraftMap} (h : m.Rel R m') : m.name = m'.name := by
  obtain ⟨blocks, rfl, -⟩ := h
  rfl

/-- Blocks resolve alike if **their entries do**. -/
theorem DraftBlock.Rel.resolve {b b' : DraftBlock} (h : b.Rel R b')
    (hR : ∀ e e', R e e' → DraftEntry.ResolvesLike templates templates' e e') :
    Refines Eq (b.resolve options templates) (b'.resolve options templates') := by
  obtain ⟨path, entries, rfl, hentries⟩ := h
  exact (resolveEntries_refines (hentries.imp hR) 0).bindEq fun _ => .refl _

/-- Maps resolve alike if **the entries of their blocks do**. -/
theorem DraftMap.Rel.resolve {m m' : DraftMap} (h : m.Rel R m')
    (hR : ∀ e e', R e e' → DraftEntry.ResolvesLike templates templates' e e') :
    Refines Eq (m.resolve options templates) (m'.resolve options templates') := by
  obtain ⟨blocks, rfl, hblocks⟩ := h
  exact (Refines.mapMEq hblocks fun _ _ hb => hb.resolve hR).bindEq fun _ => .refl _

end Related

/-- **Drafts that are alike**: their maps are, their templates are found alike, and the rest is the
same. -/
structure Draft.Like (d d' : Draft) : Prop where
  maps : List.Forall₂ DraftMap.Like d.maps d'.maps
  templates : TemplatesLike d.templates d'.templates
  clocks : d'.clocks = d.clocks
  resets : d'.resets = d.resets
  interfaces : d'.interfaces = d.interfaces

variable {options : Options}

/-- Drafts that are alike **resolve alike**. -/
theorem Draft.Like.resolve {d d' : Draft} (h : d.Like d') :
    Refines Eq (d.resolve options) (d'.resolve options) := by
  refine (Refines.mapMEq h.maps fun _ _ hm => ?_).bindEq fun maps => ?_
  · exact hm.resolve fun _ _ he => he.resolvesLike h.templates
  rw [h.clocks, h.resets, h.interfaces]
  exact .refl _

/-- Documents that are drafted alike have **the same model**. -/
theorem Refines.resolve {x y : Checked Draft} (h : Refines Draft.Like x y) (options : Options) :
    Refines Eq (do (← x).resolve options) (do (← y).resolve options) :=
  h.bind fun _ _ hlike => hlike.resolve

/-! ### Parts -/

/-- **Parts that are alike.** The templates may come in another order. -/
structure DraftParts.Like (p p' : DraftParts) : Prop where
  templates : PermRel DraftTemplate.Like p.templates p'.templates
  maps : List.Forall₂ DraftMap.Like p.maps p'.maps
  clocks : p'.clocks = p.clocks
  resets : p'.resets = p.resets
  interfaces : p'.interfaces = p.interfaces

/-- Related maps are **merged** into related maps. -/
theorem mergeInto_rel {R : DraftEntry → DraftEntry → Prop} {maps maps' : List DraftMap}
    {map map' : DraftMap} (hmaps : List.Forall₂ (DraftMap.Rel R) maps maps')
    (hmap : map.Rel R map') :
    List.Forall₂ (DraftMap.Rel R) (mergeInto maps map) (mergeInto maps' map') := by
  have hnames : maps.map (·.name) = maps'.map (·.name) :=
    map_eq_map_iff_forall₂.mpr (hmaps.imp fun _ _ h => h.name)
  obtain ⟨blocks, rfl, hblocks⟩ := hmap
  rw [mergeInto, mergeInto]
  by_cases hold : map.name ∈ maps.map (·.name)
  · rw [if_pos (any_name_iff.mpr hold), if_pos (any_name_iff.mpr (hnames ▸ hold)),
      List.forall₂_map_left_iff, List.forall₂_map_right_iff]
    refine hmaps.imp fun m m' hm => ?_
    obtain ⟨mblocks, rfl, hmblocks⟩ := hm
    dsimp only
    split
    · exact ⟨_, rfl, List.rel_append hmblocks hblocks⟩
    · exact ⟨_, rfl, hmblocks⟩
  · rw [if_neg (mt any_name_iff.mp hold), if_neg (mt any_name_iff.mp (hnames ▸ hold))]
    exact List.rel_append hmaps (.cons ⟨blocks, rfl, hblocks⟩ .nil)

/-- Merging keeps maps related. -/
theorem mergedMaps_rel {R : DraftEntry → DraftEntry → Prop} {maps maps' : List DraftMap}
    (h : List.Forall₂ (DraftMap.Rel R) maps maps') :
    List.Forall₂ (DraftMap.Rel R) (mergedMaps maps) (mergedMaps maps') :=
  List.rel_foldl (P := List.Forall₂ (DraftMap.Rel R)) (R := DraftMap.Rel R)
    (fun _ _ hacc _ _ hmap => mergeInto_rel hacc hmap) .nil h

/-- Templates with names of their own are found **in whatever order** they come. -/
theorem templatesLike_of_permRel (h : PermRel DraftTemplate.Like templates templates')
    (hnamed : (templates.map (·.name)).Nodup) :
    TemplatesLike templates templates' ∧ (templates'.map (·.name)).Nodup := by
  obtain ⟨ts, hlike, hperm⟩ := h
  have hnames : templates.map (·.name) = ts.map (·.name) :=
    map_eq_map_iff_forall₂.mpr (hlike.imp fun _ _ h => h.1.symm)
  rw [hnames] at hnamed
  refine ⟨fun name => ?_, (hperm.map _).nodup_iff.mp hnamed⟩
  rw [find?_eq_of_perm (fun a ha b hb hpa hpb => ?_) hperm]
  · exact rel_find? hlike fun _ _ h => by rw [h.1]
  · simp only [beq_iff_eq] at hpa hpb
    exact List.inj_on_of_nodup_map hnamed ha hb (hpa.trans hpb.symm)

/-- Parts that are alike **make drafts that are alike**. -/
theorem DraftParts.Like.ofParts {p p' : DraftParts} (h : p.Like p') (shape shape' : Shape)
    (hnamed : (Draft.ofParts shape p).TemplatesNamed) :
    (Draft.ofParts shape' p').TemplatesNamed ∧
      (Draft.ofParts shape p).Like (Draft.ofParts shape' p') := by
  obtain ⟨hlike, hnamed'⟩ := templatesLike_of_permRel h.templates hnamed
  exact ⟨hnamed', mergedMaps_rel h.maps, hlike, h.clocks, h.resets, h.interfaces⟩

/-- The parts of several sections are alike if those of each section are. -/
theorem DraftParts.Like.join {ps ps' : List DraftParts} (h : List.Forall₂ DraftParts.Like ps ps') :
    (DraftParts.join ps).Like (DraftParts.join ps') := by
  induction h with
  | nil => exact ⟨.nil, .nil, rfl, rfl, rfl⟩
  | cons hp _ ih =>
      refine ⟨hp.templates.append ih.templates, List.rel_append hp.maps ih.maps, ?_, ?_, ?_⟩
      · exact congrArg₂ _ hp.clocks ih.clocks
      · exact congrArg₂ _ hp.resets ih.resets
      · exact congrArg₂ _ hp.interfaces ih.interfaces

end RegisterMap
