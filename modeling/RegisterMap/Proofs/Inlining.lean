import RegisterMap.Proofs.Changes
import RegisterMap.Proofs.Paths

/-!
# Templates Are Abbreviations

An array that repeats a template may as well list the registers of the template itself. The two
forms are read by different readers: one reads the body where the array stands, the other keeps a
name that is looked up when the draft is resolved. The documents nevertheless have the same model.

## Conventions

Documents differ in entries of register lists only. Any number of them may be written out, in any
section, and each template is the one of its name in the tables of all sections.

## Main results

* `inlineOf_inlineEntry` — every array of a template can be written with its own registers.
* `DraftArray.FilledIn.resolve` — filling in a template does not change what an array resolves to.
* `readTemplateArray_inlined` — both forms are read alike.
* `Model.ofSections_inlined` — the model of the document.
-/

namespace RegisterMap

open Yaml (Value)

section Inlining

variable {options : Options}

/-! ### Arrays in either form -/

open Yaml.Value (ChangedAt EachItem)

/-- The keys that an array has in both forms. -/
def arrayKeys : List String :=
  ["name", "count", "stride", "addressOffset", "offset", "indexStart", "naming"]

/-- The entry `w` describes the array of `generate`, and **lists the registers** of the template
that the array repeats. Of the two keys for an offset the array has one at most. -/
structure InlineOf (table : List (Option String × Value)) (generate w : Value) : Prop where
  isMap : w.isMap = true
  plain : w.at? "generateArray" = none
  shared : ∀ key ∈ arrayKeys, generate.at? key = w.at? key
  count : (w.at? "count").isSome = true
  offset : w.at? "offset" = none ∨ w.at? "addressOffset" = none
  body : ∃ text name body, generate.at? "template" = some text ∧ text.asStr? = some name ∧
    (some name, body) ∈ table ∧ w.get? "registers" = some body

/-- The same entry of a register list, or **an array of a template written out**. -/
inductive EntryInlined (table : List (Option String × Value)) : Value → Value → Prop
  | same (v : Value) : EntryInlined table v v
  | inline {v w generate : Value} (hgenerate : v.at? "generateArray" = some generate)
      (h : InlineOf table generate w) : EntryInlined table v w

/-- The same block, except for arrays that are written out. -/
def BlockInlined (table : List (Option String × Value)) : Value → Value → Prop :=
  ChangedAt "registers" (EachItem (EntryInlined table))

/-- The same map, except for arrays that are written out. -/
def MapInlined (table : List (Option String × Value)) : Value → Value → Prop :=
  ChangedAt "addressBlocks" (EachItem (BlockInlined table))

/-- The same maps, or the same single map, except for arrays that are written out. -/
inductive MapsInlined (table : List (Option String × Value)) : Value → Value → Prop
  | list {maps maps' : List Value} (h : List.Forall₂ (MapInlined table) maps maps') :
      MapsInlined table (.seq maps) (.seq maps')
  | single {v w : Value} (h : MapInlined table v w) : MapsInlined table v w

/-- The same section, **except for arrays that are written out**. -/
def SectionInlined (table : List (Option String × Value)) : Value → Value → Prop :=
  ChangedAt "memoryMap" (MapsInlined table)

/-! ### Writing an array out -/

/-- An array of a template, written out with this body. -/
def inlineEntry (generate body : Value) : Value :=
  .map ((.str "registers", body) ::
    arrayKeys.filterMap fun key => (generate.at? key).map fun v => (.str key, v))

/-- Entries that were made key by key are found **by their keys**. -/
theorem find?_pairs (at? : String → Option Value) (key : String) (keys : List String) :
    ((keys.filterMap fun k => (at? k).map fun v => (Value.str k, v)).find?
      fun e => Value.isKey key e.1).map (·.2) = if key ∈ keys then at? key else none := by
  induction keys with
  | nil => rfl
  | cons k keys ih =>
      by_cases hk : k = key
      · subst hk
        rw [if_pos List.mem_cons_self]
        cases hat : at? k with
        | some v => simp [hat, Value.isKey]
        | none =>
            rw [List.filterMap_cons, hat]
            refine ih.trans ?_
            split
            · exact hat
            · rfl
      · have hmem : key ∈ k :: keys ↔ key ∈ keys := by simp [Ne.symm hk]
        rw [if_congr hmem rfl rfl, ← ih]
        cases hat : at? k with
        | some v => simp [hat, Value.isKey, hk]
        | none => simp [hat]

/-- The entry written out has the keys of an array from **the short form**, and no others. -/
theorem get?_inlineEntry (generate body : Value) {key : String} (hkey : key ≠ "registers") :
    (inlineEntry generate body).get? key =
      if key ∈ arrayKeys then generate.at? key else none := by
  rw [← find?_pairs generate.at? key arrayKeys]
  simp [inlineEntry, Value.get?, Value.asMap?, Value.untag, Value.isKey, hkey.symm]

/-- At these keys it has the same. -/
theorem at?_inlineEntry (generate body : Value) {key : String} (hkey : key ∈ arrayKeys) :
    (inlineEntry generate body).at? key = generate.at? key := by
  have hne : key ≠ "registers" := ne_of_mem_of_not_mem hkey (by decide)
  refine Value.at?_of_get?_eq ?_
  rw [get?_inlineEntry generate body hne, if_pos hkey]

/-- Every array of a template **can be written out**. -/
theorem inlineOf_inlineEntry {table : List (Option String × Value)}
    {generate text body : Value} {name : String}
    (htemplate : generate.at? "template" = some text) (hname : text.asStr? = some name)
    (hbody : (some name, body) ∈ table) (hcount : (generate.at? "count").isSome = true)
    (hoffset : generate.at? "offset" = none ∨ generate.at? "addressOffset" = none) :
    InlineOf table generate (inlineEntry generate body) where
  isMap := rfl
  plain := by
    rw [Value.at?, get?_inlineEntry _ _ (by decide), if_neg (by decide)]
  shared _ hkey := (at?_inlineEntry generate body hkey).symm
  count := by rwa [at?_inlineEntry generate body (by decide)]
  offset := by
    rwa [at?_inlineEntry generate body (by decide), at?_inlineEntry generate body (by decide)]
  body := ⟨text, name, body, htemplate, hname, hbody, rfl⟩

/-! ### Templates filled in -/

/-- The body repeats a template; the other one **lists the same entries**. -/
inductive ArrayBody.FilledIn (templates : List DraftTemplate) :
    ArrayBody DraftEntry → ArrayBody DraftEntry → Prop
  | intro {name : String} {t : DraftTemplate} {entries : List DraftEntry}
      (hfind : templates.find? (·.name == name) = some t)
      (hlike : List.Forall₂ DraftEntry.Like t.entries entries) :
      FilledIn templates (.template name) (.inline entries)

/-- The same array with its template filled in. -/
def DraftArray.FilledIn (templates : List DraftTemplate) (a a' : DraftArray DraftEntry) : Prop :=
  ∃ body, a' = { a with body } ∧ a.body.FilledIn templates body

/-- The same entry, or an array **with its template filled in**. -/
inductive DraftEntry.FilledIn (templates : List DraftTemplate) : DraftEntry → DraftEntry → Prop
  | same (e : DraftEntry) : FilledIn templates e e
  | array {a a' : DraftArray DraftEntry} (h : a.FilledIn templates a') :
      FilledIn templates (.array a) (.array a')

variable {templates : List DraftTemplate}

/-- An array resolves to the same **with its template filled in**. -/
theorem DraftArray.FilledIn.resolve {a a' : DraftArray DraftEntry} (h : a.FilledIn templates a')
    (cursor : Address) :
    Refines Eq (a.resolve templates cursor) (a'.resolve templates cursor) := by
  obtain ⟨body, rfl, hbody⟩ := h
  refine DraftArray.resolve_refines ?_ cursor
  simp only [DraftArray.bodyEntries]
  generalize a.body = abody at hbody
  cases hbody with
  | intro hfind hlike =>
      dsimp only
      rw [hfind]
      exact .ok (resolveTemplate_like hlike 0)

/-- An array with its template filled in **resolves like the one that names it**. -/
theorem DraftEntry.FilledIn.resolvesLike {e e' : DraftEntry} (h : FilledIn templates e e') :
    ResolvesLike templates templates e e' := by
  cases h with
  | array h => exact .array h.resolve
  | same e =>
      cases e with
      | register r => exact .register fun _ => .refl _
      | reserved path bytes => exact .reserved path path bytes
      | array a => exact .array fun _ => .refl _

/-- The same parts, except that **templates are filled in** in the maps. -/
structure DraftParts.FilledIn (known : List DraftTemplate) (p p' : DraftParts) : Prop where
  templates : p'.templates = p.templates
  maps : List.Forall₂ (DraftMap.Rel (DraftEntry.FilledIn known)) p.maps p'.maps
  clocks : p'.clocks = p.clocks
  resets : p'.resets = p.resets
  interfaces : p'.interfaces = p.interfaces

/-- Joined parts are filled in part by part. -/
theorem DraftParts.FilledIn.join {ps ps' : List DraftParts}
    (h : List.Forall₂ (FilledIn templates) ps ps') :
    (DraftParts.join ps).FilledIn templates (DraftParts.join ps') := by
  induction h with
  | nil => exact ⟨rfl, .nil, rfl, rfl, rfl⟩
  | cons hp _ ih =>
      refine ⟨?_, List.rel_append hp.maps ih.maps, ?_, ?_, ?_⟩
      · exact congrArg₂ _ hp.templates ih.templates
      · exact congrArg₂ _ hp.clocks ih.clocks
      · exact congrArg₂ _ hp.resets ih.resets
      · exact congrArg₂ _ hp.interfaces ih.interfaces

/-- A draft resolves to the same **with its templates filled in**. -/
theorem DraftParts.FilledIn.resolve {p p' : DraftParts} (h : p.FilledIn p.templates p')
    (shape : Shape) :
    Refines Eq ((Draft.ofParts shape p).resolve options)
      ((Draft.ofParts shape p').resolve options) := by
  simp only [Draft.resolve, Draft.ofParts, h.templates, h.clocks, h.resets, h.interfaces]
  refine (Refines.mapMEq (mergedMaps_rel h.maps) fun _ _ hm => ?_).bindEq fun _ => .refl _
  exact hm.resolve fun _ _ he => he.resolvesLike

/-! ### Arrays -/

/-- The templates have been **read from the table**. -/
def Provides (options : Options) (templates : List DraftTemplate)
    (table : List (Option String × Value)) : Prop :=
  ∀ name body, (some name, body) ∈ table →
    ∃ n t, n.value = body ∧ templates.find? (·.name == name) = some t ∧
      readFlatEntries options n.path n = .ok t.entries

/-- The sections of a document provide **all templates of their tables**. -/
theorem provides_of_read {sections : List Value} {ps : List DraftParts}
    (hps : (Draft.sectionsOf sections).mapM (readSection options) = .ok ps)
    (hnamed : ((DraftParts.join ps).templates.map (·.name)).Nodup) :
    Provides options (DraftParts.join ps).templates (sections.flatMap Value.namedTemplates) := by
  have htables := (mapM_eq_ok_iff.mp hps).imp fun _ _ h => (readParts_eq_ok_iff.mp h).1
  obtain ⟨es, hes, hread⟩ := exists_joined (fun _ _ => Located.templateTable_values) htables
  rw [sectionsOf_values] at hes
  intro name body hmem
  rw [← hes] at hmem
  obtain ⟨entry, hentry, heq⟩ := List.mem_map.mp hmem
  obtain ⟨t, ht, hreadT⟩ := exists_of_mem_of_forall₂ (mapM_eq_ok_iff.mp hread).flip hentry
  obtain ⟨entries, hentries, hpure⟩ := bind_eq_ok_iff.mp hreadT
  obtain rfl := pure_eq_ok_iff.mp hpure
  obtain ⟨hname, hvalue⟩ := Prod.mk.inj heq
  refine ⟨entry.2, _, hvalue, (find?_key_iff hnamed).mpr ⟨ht, ?_⟩, hentries⟩
  exact Option.some.inj hname

section Reading

variable {table : List (Option String × Value)} {n n' : Located}

/-- The parts of an array are read alike at **the keys of both forms**. -/
theorem readArrayParts_inlined (h : n.AgreeAt (· ∈ arrayKeys) n') (name : String)
    {keys keys' : List String} (hoffset : n.optNat64 keys = n'.optNat64 keys')
    {body body' : Checked (ArrayBody DraftEntry)}
    (hbody : Refines (ArrayBody.FilledIn templates) body body') :
    Refines (DraftArray.FilledIn templates) (readArrayParts options n name keys body)
      (readArrayParts options n' name keys' body') := by
  rw [readArrayParts, readArrayParts, hoffset, h.readCount (by decide), h.optNat64 (by decide),
    h.optNat64 (by decide), h.optStr (by decide), h.path]
  refine Refines.first fun offset => Refines.first fun count => ?_
  refine Refines.first fun stride => Refines.first fun indexStart => ?_
  refine Refines.first fun naming => ?_
  exact hbody.bind fun _ _ hbody => .ok ⟨_, rfl, hbody⟩

/-- The body of a template is a register list, and is read as one **wherever it stands**. -/
theorem Provides.body (h : Provides options templates table) {name : String} {body : Value}
    (hmem : (some name, body) ∈ table) :
    body ≠ .null ∧ ∀ parent path, Refines (ArrayBody.FilledIn templates) (pure (.template name))
      (do return .inline (← readFlatEntries options parent ⟨body, path⟩)) := by
  obtain ⟨source, t, rfl, hfind, hread⟩ := h name body hmem
  constructor
  · obtain ⟨items, hitems, -⟩ := bind_eq_ok_iff.mp hread
    rw [Located.asSeq_values hitems]
    nofun
  · rintro parent path _ ⟨⟩
    have hsame : source.Respells false ⟨source.value, path⟩ := .of_value_eq rfl
    obtain ⟨entries, hentries, hlike⟩ :=
      readFlatEntries_respelled hsame source.path parent t.entries hread
    exact ⟨.inline entries, bind_eq_ok_iff.mpr ⟨entries, hentries, rfl⟩, .intro hfind hlike⟩

/-- The array of a template is read alike **when it is written out**. -/
theorem readTemplateArray_inlined (hprovides : Provides options templates table)
    (h : InlineOf table n.value n'.value) (parent : String) :
    Refines (DraftArray.FilledIn templates) (readTemplateArray options parent n)
      (readInlineArray options parent n') := by
  obtain ⟨text, template, body, htemplate, htext, hmem, hregisters⟩ := h.body
  obtain ⟨hnull, hbody⟩ := hprovides.body hmem
  refine Refines.after fun _ => ?_
  refine (Located.name_refines (h.shared "name" (by decide))).bindEq fun name => ?_
  -- From here on both forms are read at one path.
  have hagree : (n.renamed s!"{parent}.{name}").AgreeAt (· ∈ arrayKeys)
      (n'.renamed s!"{parent}.{name}") := ⟨rfl, h.shared⟩
  have htemplate := Located.require_eq (n := n.renamed s!"{parent}.{name}") htemplate
  have hregisters := Located.require_eq (n := n'.renamed s!"{parent}.{name}")
    (Value.at?_eq_some_iff.mpr ⟨hregisters, hnull⟩)
  have hoffset : (n.renamed s!"{parent}.{name}").optNat64 ["addressOffset", "offset"] =
      (n'.renamed s!"{parent}.{name}").optNat64 ["offset", "addressOffset"] :=
    (hagree.optNat64 (by decide)).trans (Located.optNat64_swap h.offset.symm)
  dsimp only
  rw [htemplate, hregisters]
  change Refines _ (Located.asStr ⟨text, _⟩ >>= _) _
  rw [Located.asStr_eq htext]
  exact readArrayParts_inlined hagree name hoffset (hbody _ _)

/-- An entry with the key `generateArray` is read as an array **that names its template**. -/
theorem readEntry_of_generate {parent : String}
    {array : Located → Option Located → Checked DraftEntry} {generate : Located}
    (h : n.child? "generateArray" = some generate) :
    readEntry options parent array n =
      (do n.expectMapping "register entry"; array n (some generate)) := by
  rw [readEntry, h]

/-- An entry with a count and without that key is read as an array **with its body in place**. -/
theorem readEntry_of_count {parent : String}
    {array : Located → Option Located → Checked DraftEntry}
    (hgenerate : n.child? "generateArray" = none) (hcount : n.has "count" = true) :
    readEntry options parent array n =
      (do n.expectMapping "register entry"; array n none) := by
  rw [readEntry, hgenerate, hcount]

/-- A register list is read alike **when arrays in it are written out**. -/
theorem readEntries_inlined (hprovides : Provides options templates table)
    (h : n.Rel (EachItem (EntryInlined table)) n') (parent : String) :
    Refines (List.Forall₂ (DraftEntry.FilledIn templates)) (readEntries options parent n)
      (readEntries options parent n') := by
  refine (h.asSeq .same).bind fun _ _ hitems => Refines.mapM hitems ?_
  rintro ⟨v, path⟩ ⟨w, _⟩ ⟨rfl, hvalue⟩
  cases hvalue with
  | same => exact (Refines.refl _).imp fun e _ he => he ▸ .same e
  | inline hgenerate h =>
      obtain ⟨generate, hchild, rfl⟩ := Located.exists_child (n := ⟨v, path⟩) hgenerate
      have hplain : (⟨w, path⟩ : Located).child? "generateArray" = none := by
        rw [Located.child?_eq, h.plain]
        rfl
      have hcount : (⟨w, path⟩ : Located).has "count" = true := by
        rw [Located.has_eq, h.count]
      have hmapping : (⟨w, path⟩ : Located).isMapping = true := h.isMap
      rw [readEntry_of_generate hchild, readEntry_of_count hplain hcount]
      refine Refines.after fun _ => ?_
      rw [Located.expectMapping, if_pos hmapping]
      exact (readTemplateArray_inlined hprovides h parent).bind fun _ _ ha => .ok (.array ha)

/-! ### Blocks, maps and sections -/

/-- A block may stay as it is. -/
theorem BlockInlined.refl (v : Value) : BlockInlined table v v := .same v

/-- So may a map. -/
theorem MapInlined.refl (v : Value) : MapInlined table v v := .same v

/-- So may all maps. -/
theorem MapsInlined.refl (v : Value) : MapsInlined table v v := .single (.refl v)

/-- Writing arrays out makes no maps null, and none of null. -/
theorem MapsInlined.eq_null_iff {v w : Value} (h : MapsInlined table v w) :
    v = .null ↔ w = .null := by
  cases h with
  | list => simp
  | single h => exact h.eq_null_iff

/-- A block is read alike **when arrays in it are written out**. -/
theorem readBlock_inlined (hprovides : Provides options templates table)
    (h : n.Rel (BlockInlined table) n') (map : String) :
    Refines (DraftBlock.Rel (DraftEntry.FilledIn templates)) (readBlock options map n)
      (readBlock options map n') := by
  have hagree := Located.Rel.agreeAt h
  rw [readBlock, readBlock, Located.Rel.expectMapping h, hagree.name (by decide)]
  refine Refines.first fun _ => Refines.first fun name => ?_
  have h := h.renamed s!"{map}.{name}"
  have hagree := Located.Rel.agreeAt h
  dsimp only
  generalize n.renamed s!"{map}.{name}" = n at h hagree
  generalize n'.renamed s!"{map}.{name}" = n' at h hagree
  have hregisters := Located.Rel.child? h .same fun _ _ h => h.eq_null_iff
  rw [hagree.optNat64 (by decide), hagree.child? (by decide), hagree.optStr (by decide),
    hagree.optNat64 (by decide), hagree.path]
  refine Refines.first fun offset => ?_
  cases offset with
  | none => exact fun _ h => nomatch h
  | some offset =>
      refine Refines.first fun _ => Refines.first fun usage => ?_
      generalize n.child? "registers" = list at hregisters
      generalize n'.child? "registers" = list' at hregisters
      cases hregisters with
      | some hlist =>
          refine (readEntries_inlined hprovides hlist _).bind fun _ _ hentries => ?_
          refine Refines.first fun _ => Refines.first fun _ => ?_
          exact .ok ⟨_, _, rfl, hentries⟩
      | none =>
          refine Refines.first fun entries => ?_
          refine Refines.first fun _ => Refines.first fun _ => ?_
          exact .ok ⟨_, _, rfl, List.forall₂_same.mpr fun e _ => .same e⟩

/-- A map is read alike **when arrays in its blocks are written out**. -/
theorem readMap_inlined (hprovides : Provides options templates table)
    (h : n.Rel (MapInlined table) n') :
    Refines (DraftMap.Rel (DraftEntry.FilledIn templates)) (readMap options n)
      (readMap options n') := by
  have hagree := Located.Rel.agreeAt h
  rw [readMap, readMap, Located.Rel.expectMapping h, hagree.name (by decide)]
  refine Refines.first fun _ => Refines.first fun name => ?_
  have h := h.renamed name
  have hagree := Located.Rel.agreeAt h
  dsimp only
  generalize n.renamed name = n at h hagree
  generalize n'.renamed name = n' at h hagree
  have hlist : Refines (List.Forall₂ (Located.Rel (BlockInlined table)))
      (n.optSeq "addressBlocks") (n'.optSeq "addressBlocks") := by
    have hchild := Located.Rel.child? h .same fun _ _ h => h.eq_null_iff
    exact Located.optSeq_refines hchild fun _ _ hlist => hlist.asSeq .refl
  rw [hagree.optStr (by decide)]
  refine hlist.bind fun _ _ hlist => ?_
  refine (Refines.mapM hlist fun _ _ h => readBlock_inlined hprovides h name).bind ?_
  intro blocks blocks' hblocks
  exact Refines.first fun _ => .ok ⟨_, rfl, hblocks⟩

/-- Maps are listed, or **a single map** stands for the list. -/
theorem asSeqOrOne_inlined (h : n.Rel (MapsInlined table) n') :
    Refines (List.Forall₂ (Located.Rel (MapInlined table))) n.asSeqOrOne n'.asSeqOrOne := by
  obtain ⟨v, path⟩ := n
  obtain ⟨w, path'⟩ := n'
  obtain ⟨rfl, h⟩ := h
  cases h with
  | list h => exact .ok (rel_mapIdx h fun _ _ _ h => ⟨rfl, h⟩)
  | single h =>
      by_cases hv : v.isMap = true
      · rw [Located.asSeqOrOne, Located.asSeqOrOne, Located.isMapping, Located.isMapping, if_pos hv,
          if_pos (h.isMap.symm.trans hv)]
        exact .ok (.cons ⟨rfl, h⟩ .nil)
      -- What is no mapping stays as it is, or lists nothing because it is tagged.
      · cases h with
        | map => exact absurd rfl hv
        | same =>
            refine (Refines.refl _).imp fun maps _ hmaps => hmaps ▸ ?_
            exact List.forall₂_same.mpr fun _ _ => ⟨rfl, .refl _⟩
        | tagged =>
            rw [Located.asSeqOrOne, Located.isMapping, if_neg hv]
            exact .failAt _ _

/-- A section has the same maps, **with arrays in them written out**. -/
theorem sectionMaps_inlined (h : n.Rel (SectionInlined table) n') :
    Refines (List.Forall₂ (Located.Rel (MapInlined table))) n.sectionMaps n'.sectionMaps := by
  have hchild := Located.Rel.child? h .refl fun _ _ h => h.eq_null_iff
  exact Located.sectionMaps_refines hchild fun _ _ => asSeqOrOne_inlined

/-- A section contributes the same, except for **templates that are filled in**. -/
theorem readSection_inlined (hprovides : Provides options templates table)
    (h : n.Rel (SectionInlined table) n') :
    Refines (DraftParts.FilledIn templates) (readSection options n) (readSection options n') := by
  have hagree := Located.Rel.agreeAt h
  have htable : n.templateTable = n'.templateTable := by
    rw [Located.templateTable, Located.templateTable, hagree.child? (by decide)]
  rw [readSection, readSection, readParts, readParts, htable, hagree.optSeq (by decide),
    hagree.optSeq (by decide), hagree.optSeq (by decide)]
  refine Refines.first fun _ => Refines.first fun templates => ?_
  refine (sectionMaps_inlined h).bind fun _ _ hlist => ?_
  refine (Refines.mapM hlist fun _ _ => readMap_inlined hprovides).bind fun _ _ hmaps => ?_
  refine Refines.first fun _ => Refines.first fun clocks => ?_
  refine Refines.first fun _ => Refines.first fun resets => ?_
  refine Refines.first fun _ => Refines.first fun interfaces => ?_
  exact .ok ⟨rfl, hmaps, rfl, rfl, rfl⟩

end Reading

/-! ### Documents -/

variable {sections sections' : List Value}

/-- Sections whose arrays are **written out** resolve to the same. -/
theorem ofLegacy_inlined
    (h : List.Forall₂ (SectionInlined (sections.flatMap Value.namedTemplates)) sections sections') :
    Refines Eq (do (← Draft.ofLegacy options sections).resolve options)
      (do (← Draft.ofLegacy options sections').resolve options) := by
  intro m hm
  obtain ⟨d, hd, hm⟩ := bind_eq_ok_iff.mp hm
  obtain ⟨ps, hps, hnamed, rfl⟩ := Draft.ofLegacy_eq_ok_iff.mp hd
  have hprovides := provides_of_read hps hnamed
  have hroots : List.Forall₂ (Located.Rel (SectionInlined _)) (Draft.sectionsOf sections)
      (Draft.sectionsOf sections') := rel_mapIdx h fun _ _ _ h => ⟨rfl, h⟩
  obtain ⟨ps', hps', hparts⟩ :=
    Refines.mapM hroots (fun _ _ => readSection_inlined hprovides) ps hps
  have hfilled := DraftParts.FilledIn.join hparts
  have hnamed' : (Draft.ofParts .legacy (.join ps')).TemplatesNamed := by
    rw [Draft.TemplatesNamed, Draft.ofParts, hfilled.templates]
    exact hnamed
  have hd' := Draft.ofLegacy_eq_ok_iff.mpr ⟨ps', hps', hnamed', rfl⟩
  obtain ⟨_, hm', rfl⟩ := hfilled.resolve .legacy m hm
  exact ⟨_, bind_eq_ok_iff.mpr ⟨_, hd', hm'⟩, rfl⟩

/-- **Templates are abbreviations.** A legacy document that resolves does so with arrays of
templates written out, to the same model. -/
theorem Model.ofSections_inlined (options : Options) {m : Model}
    (hshape : Shape.detect sections = .ok .legacy) (h : ofSections options sections = .ok m)
    (hinlined : List.Forall₂ (SectionInlined (sections.flatMap Value.namedTemplates))
      sections sections') :
    ofSections options sections' = .ok m := by
  obtain ⟨shape, hshape', rfl⟩ :=
    Shape.detect_outline (hinlined.imp fun _ _ h => h.sameOutline) _ hshape
  rw [ofSections_of_legacy hshape] at h
  rw [ofSections_of_legacy hshape']
  obtain ⟨_, hm, rfl⟩ := ofLegacy_inlined hinlined m h
  exact hm

end Inlining

/-! ### An array with an offset and without a stride -/

namespace Channels

/-- The array: three channels from byte 32 on, which count from one. -/
def generate : Value :=
  .map [(.str "name", .str "ch"), (.str "template", .str "channel"), (.str "count", .int 3),
    (.str "addressOffset", .int 32), (.str "indexStart", .int 1)]

/-- The template: two registers with a gap between them. -/
def body : Value :=
  .seq [.map [(.str "name", .str "ctrl")], .map [(.str "reserved", .int 4)],
    .map [(.str "name", .str "level"), (.str "size", .int 16)]]

/-- A block that has a register and this entry. -/
def unit (entry : Value) : Value :=
  .map [(.str "name", .str "unit"), (.str "offset", .int 0),
    (.str "registers", .seq [.map [(.str "name", .str "status")], entry])]

/-- A map with that block alone. -/
def soc (entry : Value) : Value :=
  .map [(.str "name", .str "soc"), (.str "addressBlocks", .seq [unit entry])]

/-- A section with that map and the template. -/
def document (entry : Value) : Value :=
  .map [(.str "memoryMap", soc entry), (.str "registerTemplates", .map [(.str "channel", body)])]

/-- The registers of the template come sixteen bytes apart. -/
def channels : RegisterArray :=
  { name := "ch", offset := 32, descriptor := { count := 3, stride := 16, indexStart := 1 },
    registers :=
      [{ name := "ctrl", offset := 0, width := 32, access := .readWrite },
        { name := "level", offset := 8, width := 16, access := .readWrite }] }

/-- The block with a register and the array. -/
def block : AddressBlock :=
  { name := "unit", baseOffset := 0, size := 74,
    registers := { name := "status", offset := 0, width := 32, access := .readWrite } ::
      channels.expand
    arrays := [channels] }

/-- The model of the document. -/
def model : Model := { memoryMaps := [{ name := "soc", blocks := [block] }] }

/-- Writing the entry out is writing it out in the document. -/
theorem document_inlined {table : List (Option String × Value)} {v w : Value}
    (h : EntryInlined table v w) : SectionInlined table (document v) (document w) := by
  have hunit : BlockInlined table (unit v) (unit w) := .map (.cons ⟨rfl, .inl rfl⟩
    (.cons ⟨rfl, .inl rfl⟩ (.cons ⟨rfl, .inr ⟨rfl, .seq (.cons (.same _) (.cons h .nil))⟩⟩ .nil)))
  have hsoc : MapInlined table (soc v) (soc w) := .map (.cons ⟨rfl, .inl rfl⟩
    (.cons ⟨rfl, .inr ⟨rfl, .seq (.cons hunit .nil)⟩⟩ .nil))
  exact .map (.cons ⟨rfl, .inr ⟨rfl, .single hsoc⟩⟩ (.cons ⟨rfl, .inl rfl⟩ .nil))

/-- The document resolves to the same model with the array **written out**. -/
theorem ofSections_inlined_channels :
    Model.ofSections {} [document (.map [(.str "generateArray", generate)])] = .ok model ∧
      Model.ofSections {} [document (inlineEntry generate body)] = .ok model := by
  have hresolved : Model.ofSections {} [document (.map [(.str "generateArray", generate)])] =
      .ok model := eq_ok_of_toOption (by decide +kernel)
  have hentry : InlineOf [(some "channel", body)] generate (inlineEntry generate body) :=
    inlineOf_inlineEntry rfl rfl List.mem_cons_self rfl (.inl rfl)
  have hdocument : SectionInlined _ (document (.map [(.str "generateArray", generate)]))
      (document (inlineEntry generate body)) := document_inlined (.inline rfl hentry)
  exact ⟨hresolved, Model.ofSections_inlined {} rfl hresolved (.cons hdocument .nil)⟩

end Channels

end RegisterMap
