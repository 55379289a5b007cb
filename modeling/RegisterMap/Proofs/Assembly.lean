import Mathlib.Data.List.Nodup
import RegisterMap.Document.Reading
import RegisterMap.Proofs.Ensures

/-!
# How Drafts Are Put Together

Reading a document adds to a draft what it meets: template by template, map by map, section by
section. The order in which it does so only matters for which problem is found first. A draft that
was read is therefore known from the **parts** of the sections alone: their templates one after the
other, their maps merged by name, and the lists of clocks, resets and interfaces one after the
other.

## Main results

* `Draft.ofLegacy_eq_ok_iff` — the draft of a document in the legacy shape.
* `Draft.ofCurrent_eq_ok_iff` — the draft of a document in the current shape.
* `mergedMaps_names_nodup`, `mergedMaps_eq_self` — merging leaves each name once, and changes
  nothing where each name is there once.
-/

namespace RegisterMap

variable {options : Options}

/-! ### Parts -/

/-- What a section of a document **contributes** to the draft. -/
structure DraftParts where
  templates : List DraftTemplate := []
  maps : List DraftMap := []
  clocks : List Clock := []
  resets : List Reset := []
  interfaces : List DraftInterface := []

namespace DraftParts

/-- The parts of several sections, one after the other. -/
def join (ps : List DraftParts) : DraftParts where
  templates := ps.flatMap (·.templates)
  maps := ps.flatMap (·.maps)
  clocks := ps.flatMap (·.clocks)
  resets := ps.flatMap (·.resets)
  interfaces := ps.flatMap (·.interfaces)

end DraftParts

/-- Read one entry of a template table. -/
def readTemplate (options : Options) (entry : String × Located) : Checked DraftTemplate := do
  return {
    name := entry.1
    path := entry.2.path
    entries := ← readFlatEntries options entry.2.path entry.2 }

/-- Read the parts of a section, given what lists its templates and its maps. -/
def readParts (options : Options) (table : Checked (List (String × Located)))
    (list : Checked (List Located)) (root : Located) : Checked DraftParts := do
  let templates ← (← table).mapM (readTemplate options)
  let maps ← (← list).mapM (readMap options)
  let clocks ← (← root.optSeq "clocks").mapM readClock
  let resets ← (← root.optSeq "resets").mapM readReset
  let interfaces ← (← root.optSeq "busInterfaces").mapM (readInterface options)
  return { templates, maps, clocks, resets, interfaces }

namespace Located

/-- The template table of a section. -/
def templateTable (root : Located) : Checked (List (String × Located)) :=
  match root.child? "registerTemplates" with
  | some templates => templates.entries
  | none => .ok []

/-- The maps of a section in the legacy shape. -/
def sectionMaps (root : Located) : Checked (List Located) :=
  match root.child? "memoryMap" with
  | some maps => maps.asSeqOrOne
  | none => .ok []

/-- The maps of a document in the current shape. -/
def documentMaps (root : Located) : Checked (List Located) :=
  if root.isMapping then root.optSeq "memoryMaps" else (root.renamed "memoryMaps").asSeq

end Located

/-- A section is read if **each of its lists** is. -/
theorem readParts_eq_ok_iff {table : Checked (List (String × Located))}
    {list : Checked (List Located)} {root : Located} {p : DraftParts} :
    readParts options table list root = .ok p ↔
      (∃ es, table = .ok es ∧ es.mapM (readTemplate options) = .ok p.templates) ∧
      (∃ ns, list = .ok ns ∧ ns.mapM (readMap options) = .ok p.maps) ∧
      (∃ ns, root.optSeq "clocks" = .ok ns ∧ ns.mapM readClock = .ok p.clocks) ∧
      (∃ ns, root.optSeq "resets" = .ok ns ∧ ns.mapM readReset = .ok p.resets) ∧
      ∃ ns, root.optSeq "busInterfaces" = .ok ns ∧
        ns.mapM (readInterface options) = .ok p.interfaces := by
  simp only [readParts, bind_eq_ok_iff, pure_eq_ok_iff]
  constructor
  · rintro ⟨es, hes, ts, hts, ns, hns, maps, hmaps, cs, hcs, clocks, hclocks, rs, hrs, resets,
      hresets, is, his, interfaces, hinterfaces, rfl⟩
    exact ⟨⟨es, hes, hts⟩, ⟨ns, hns, hmaps⟩, ⟨cs, hcs, hclocks⟩, ⟨rs, hrs, hresets⟩,
      is, his, hinterfaces⟩
  · rintro ⟨⟨es, hes, hts⟩, ⟨ns, hns, hmaps⟩, ⟨cs, hcs, hclocks⟩, ⟨rs, hrs, hresets⟩,
      is, his, hinterfaces⟩
    exact ⟨es, hes, _, hts, ns, hns, _, hmaps, cs, hcs, _, hclocks, rs, hrs, _, hresets, is, his, _,
      hinterfaces, rfl⟩

/-- Read the parts of a section in the **legacy** shape. -/
def readSection (options : Options) (root : Located) : Checked DraftParts :=
  readParts options root.templateTable root.sectionMaps root

/-- Read the parts of a document in the **current** shape, which has no templates. -/
def readDocument (options : Options) (root : Located) : Checked DraftParts :=
  readParts options (.ok []) root.documentMaps root

/-! ### Merging maps -/

/-- The maps with one more, or with its blocks in the map of its name. -/
def mergeInto (maps : List DraftMap) (map : DraftMap) : List DraftMap :=
  if maps.any (·.name == map.name) then
    maps.map fun m =>
      if m.name == map.name then
        { m with
          description := m.description.or map.description
          blocks := m.blocks ++ map.blocks }
      else m
  else maps ++ [map]

/-- The maps **merged by name**, in the order in which the names come up. -/
def mergedMaps (maps : List DraftMap) : List DraftMap := maps.foldl mergeInto []

/-- Merging a map into a draft changes **its maps only**. -/
theorem Draft.mergeMap_eq (d : Draft) (map : DraftMap) :
    d.mergeMap map = { d with maps := mergeInto d.maps map } := by
  rw [mergeMap, mergeInto]
  split <;> rfl

/-- A name has come up if it is that of a map. -/
theorem any_name_iff {maps : List DraftMap} {name : String} :
    maps.any (·.name == name) = true ↔ name ∈ maps.map (·.name) := by
  simp only [List.any_eq_true, beq_iff_eq, List.mem_map]

/-- Merging a map adds its name at most. -/
theorem mergeInto_names (maps : List DraftMap) (map : DraftMap) :
    (mergeInto maps map).map (·.name) =
      if map.name ∈ maps.map (·.name) then maps.map (·.name)
      else maps.map (·.name) ++ [map.name] := by
  rw [mergeInto]
  by_cases h : map.name ∈ maps.map (·.name)
  · rw [if_pos (any_name_iff.mpr h), if_pos h, List.map_map]
    refine List.map_congr_left fun m _ => ?_
    dsimp only [Function.comp]
    split <;> rfl
  · rw [if_neg (mt any_name_iff.mp h), if_neg h, List.map_append, List.map_singleton]

/-- A map of **a new name** comes last. -/
theorem mergeInto_eq_append {maps : List DraftMap} {map : DraftMap}
    (h : map.name ∉ maps.map (·.name)) : mergeInto maps map = maps ++ [map] := by
  rw [mergeInto, if_neg (mt any_name_iff.mp h)]

/-- Merged maps have **each name once**. -/
theorem mergedMaps_names_nodup (maps : List DraftMap) :
    ((mergedMaps maps).map (·.name)).Nodup := by
  have step (acc : List DraftMap) (h : (acc.map (·.name)).Nodup) :
      ((maps.foldl mergeInto acc).map (·.name)).Nodup := by
    induction maps generalizing acc with
    | nil => exact h
    | cons map maps ih =>
        refine ih _ ?_
        rw [mergeInto_names]
        split
        · exact h
        · next hnew => exact List.nodup_append_comm.mp (List.nodup_cons.mpr ⟨hnew, h⟩)
  exact step [] List.nodup_nil

/-- Where each name is there once, there is **nothing to merge**. -/
theorem mergedMaps_eq_self {maps : List DraftMap} (h : (maps.map (·.name)).Nodup) :
    mergedMaps maps = maps := by
  have step (acc : List DraftMap) (hacc : ((acc ++ maps).map (·.name)).Nodup) :
      maps.foldl mergeInto acc = acc ++ maps := by
    clear h
    induction maps generalizing acc with
    | nil => rw [List.foldl_nil, List.append_nil]
    | cons map maps ih =>
        have hnew : map.name ∉ acc.map (·.name) := by
          rw [List.map_append, List.map_cons, List.nodup_middle, List.nodup_cons] at hacc
          exact fun hmem => hacc.1 (List.mem_append_left _ hmem)
        rw [List.append_cons] at hacc ⊢
        rw [List.foldl_cons, mergeInto_eq_append hnew, ih _ hacc]
  exact step [] h

/-! ### Adding parts to a draft -/

/-- Names are different without the last one, too. -/
theorem nodup_of_nodup_concat {names : List String} {name : String}
    (h : (names ++ [name]).Nodup) : names.Nodup :=
  (List.nodup_cons.mp (List.nodup_append_comm.mp h)).2

namespace Draft

variable {d d' : Draft}

/-- Each template of the draft has **a name of its own**. -/
def TemplatesNamed (d : Draft) : Prop := (d.templates.map (·.name)).Nodup

/-- Each map of the draft has **a name of its own**. -/
def MapsNamed (d : Draft) : Prop := (d.maps.map (·.name)).Nodup

/-- The draft with one more template. -/
def withTemplate (d : Draft) (t : DraftTemplate) : Draft :=
  { d with templates := d.templates ++ [t] }

/-- The draft with one more map. -/
def withMap (d : Draft) (map : DraftMap) : Draft := { d with maps := d.maps ++ [map] }

/-- The draft with the **parts of one more section**. -/
def add (d : Draft) (p : DraftParts) : Draft where
  shape := d.shape
  maps := p.maps.foldl mergeInto d.maps
  templates := d.templates ++ p.templates
  clocks := d.clocks ++ p.clocks
  resets := d.resets ++ p.resets
  interfaces := d.interfaces ++ p.interfaces

/-- Templates are added at the end, in their order. -/
theorem foldl_withTemplate (d : Draft) (ts : List DraftTemplate) :
    ts.foldl withTemplate d = { d with templates := d.templates ++ ts } := by
  induction ts generalizing d with
  | nil => simp
  | cons t ts ih => simp [ih, withTemplate]

/-- So are maps in the current shape. -/
theorem foldl_withMap (d : Draft) (maps : List DraftMap) :
    maps.foldl withMap d = { d with maps := d.maps ++ maps } := by
  induction maps generalizing d with
  | nil => simp
  | cons map maps ih => simp [ih, withMap]

/-- Maps in the legacy shape are merged, **one after another**. -/
theorem foldl_mergeMap (d : Draft) (maps : List DraftMap) :
    maps.foldl mergeMap d = { d with maps := maps.foldl mergeInto d.maps } := by
  induction maps generalizing d with
  | nil => rfl
  | cons map maps ih => rw [List.foldl_cons, ih, mergeMap_eq, List.foldl_cons]

/-- Adding the parts of sections one by one is **adding them joined**. -/
theorem foldl_add (d : Draft) (ps : List DraftParts) : ps.foldl add d = d.add (.join ps) := by
  induction ps generalizing d with
  | nil => simp [add, DraftParts.join]
  | cons p ps ih => simp [ih, add, DraftParts.join, List.foldl_append]

/-- A template is added if its name is new. -/
theorem addTemplate_eq_ok_iff {entry : String × Located} (hd : d.TemplatesNamed) :
    d.addTemplate options entry = .ok d' ↔
      ∃ t, readTemplate options entry = .ok t ∧ (d.withTemplate t).TemplatesNamed ∧
        d' = d.withTemplate t := by
  have hold {name : String} :
      (d.template? name).isSome = true ↔ name ∈ d.templates.map (·.name) := by
    simp only [template?, List.find?_isSome, beq_iff_eq, List.mem_map]
  have hnamed {t : DraftTemplate} :
      (d.withTemplate t).TemplatesNamed ↔ t.name ∉ d.templates.map (·.name) := by
    rw [TemplatesNamed, withTemplate, List.map_append, List.map_singleton,
      List.nodup_append_comm, List.singleton_append, List.nodup_cons]
    exact and_iff_left hd
  simp only [readTemplate, bind_eq_ok_iff, pure_eq_ok_iff, hnamed, ← hold]
  constructor
  · intro h
    obtain ⟨entries, hentries, h⟩ := bind_eq_ok_iff.mp h
    by_cases hnew : (d.template? entry.1).isSome = true
    · rw [if_pos hnew] at h
      nomatch h
    · rw [if_neg hnew] at h
      exact ⟨_, ⟨entries, hentries, rfl⟩, hnew, (pure_eq_ok_iff.mp h).symm⟩
  · rintro ⟨_, ⟨entries, hentries, rfl⟩, hnew, rfl⟩
    refine bind_eq_ok_iff.mpr ⟨entries, hentries, ?_⟩
    rw [if_neg hnew]
    rfl

/-- A map is added to a document in the current shape if its name is new. -/
theorem readAndAddMap_eq_ok_iff {n : Located} (hd : d.MapsNamed) :
    d.readAndAddMap options n = .ok d' ↔
      ∃ map, readMap options n = .ok map ∧ (d.withMap map).MapsNamed ∧ d' = d.withMap map := by
  have hnamed {map : DraftMap} :
      (d.withMap map).MapsNamed ↔ ¬ (d.maps.any (·.name == map.name) = true) := by
    rw [any_name_iff, MapsNamed, withMap, List.map_append, List.map_singleton,
      List.nodup_append_comm, List.singleton_append, List.nodup_cons]
    exact and_iff_left hd
  rw [readAndAddMap, bind_eq_ok_iff]
  refine exists_congr fun map => and_congr_right fun _ => ?_
  rw [hnamed, addMap]
  by_cases hnew : d.maps.any (·.name == map.name) = true
  · rw [if_pos hnew]
    exact ⟨fun h => (nomatch h), fun h => absurd hnew h.1⟩
  · rw [if_neg hnew, Except.ok.injEq, eq_comm]
    exact (and_iff_right hnew).symm

/-- Adding a section reads its template table, then its maps, then the rest. -/
theorem addSection_eq (d : Draft) (root : Located) :
    d.addSection options root = (do
      let d ← (← root.templateTable).foldlM (addTemplate options) d
      let d ← (← root.sectionMaps).foldlM (readAndMergeMap options) d
      d.addShared options root) := by
  rw [addSection, Located.templateTable, Located.sectionMaps]
  cases root.child? "registerTemplates" <;> cases root.child? "memoryMap" <;> rfl

/-- A template table is added if its entries can be read and their names are new. -/
theorem addTemplates_eq_ok_iff {table : List (String × Located)} (hd : d.TemplatesNamed) :
    table.foldlM (addTemplate options) d = .ok d' ↔
      ∃ ts, table.mapM (readTemplate options) = .ok ts ∧
        (ts.foldl withTemplate d).TemplatesNamed ∧ d' = ts.foldl withTemplate d := by
  refine foldlM_eq_ok_iff (fun d t h => ?_) (fun _ _ _ => addTemplate_eq_ok_iff) hd
  rw [TemplatesNamed, withTemplate, List.map_append] at h
  exact nodup_of_nodup_concat h

/-- Maps are merged if they can be read. -/
theorem mergeMaps_eq_ok_iff {list : List Located} :
    list.foldlM (readAndMergeMap options) d = .ok d' ↔
      ∃ maps, list.mapM (readMap options) = .ok maps ∧ d' = maps.foldl mergeMap d := by
  have hstep (d : Draft) (n : Located) (d' : Draft) (_ : True) :
      d.readAndMergeMap options n = .ok d' ↔
        ∃ map, readMap options n = .ok map ∧ True ∧ d' = d.mergeMap map := by
    simp only [readAndMergeMap, bind_eq_ok_iff, pure_eq_ok_iff, true_and, eq_comm (a := d')]
  have h : list.foldlM (readAndMergeMap options) d = .ok d' ↔
      ∃ maps, list.mapM (readMap options) = .ok maps ∧ True ∧ d' = maps.foldl mergeMap d :=
    @foldlM_eq_ok_iff _ _ _ (fun _ => True) _ _ _ (fun _ _ h => h) hstep _ _ _ trivial
  simpa only [true_and] using h

/-- A section is added if it can be read and its templates have new names. -/
theorem addSection_eq_ok_iff {root : Located} (hd : d.TemplatesNamed) :
    d.addSection options root = .ok d' ↔
      ∃ p, readSection options root = .ok p ∧ (d.add p).TemplatesNamed ∧ d' = d.add p := by
  simp only [addSection_eq, readSection, readParts, addShared, bind_eq_ok_iff, pure_eq_ok_iff,
    addTemplates_eq_ok_iff hd, mergeMaps_eq_ok_iff, foldl_withTemplate, foldl_mergeMap]
  constructor
  · rintro ⟨table, htable, _, ⟨ts, hts, hnamed, rfl⟩, list, hlist, _, ⟨maps, hmaps, rfl⟩, cs, hcs,
      clocks, hclocks, rs, hrs, resets, hresets, is, his, interfaces, hinterfaces, rfl⟩
    exact ⟨_, ⟨table, htable, ts, hts, list, hlist, maps, hmaps, cs, hcs, clocks, hclocks, rs, hrs,
      resets, hresets, is, his, interfaces, hinterfaces, rfl⟩, hnamed, rfl⟩
  · rintro ⟨_, ⟨table, htable, ts, hts, list, hlist, maps, hmaps, cs, hcs, clocks, hclocks, rs, hrs,
      resets, hresets, is, his, interfaces, hinterfaces, rfl⟩, hnamed, rfl⟩
    exact ⟨table, htable, _, ⟨ts, hts, hnamed, rfl⟩, list, hlist, _, ⟨maps, hmaps, rfl⟩, cs, hcs,
      clocks, hclocks, rs, hrs, resets, hresets, is, his, interfaces, hinterfaces, rfl⟩

/-! ### Drafts of documents -/

/-- The draft of these parts. -/
def ofParts (shape : Shape) (p : DraftParts) : Draft where
  shape
  maps := mergedMaps p.maps
  templates := p.templates
  clocks := p.clocks
  resets := p.resets
  interfaces := p.interfaces

/-- Parts that are added to nothing are a draft by themselves. -/
theorem add_empty (shape : Shape) (p : DraftParts) :
    ({ shape } : Draft).add p = ofParts shape p := rfl

/-- The sections of a document in the legacy shape, at their paths. -/
def sectionsOf (sections : List Yaml.Value) : List Located :=
  sections.mapIdx fun i value => ⟨value, Shape.sectionPath i⟩

/-- The draft of a document in the **legacy** shape: all sections can be read, no two templates have
one name, and the draft consists of the parts of all sections. -/
theorem ofLegacy_eq_ok_iff {sections : List Yaml.Value} {d : Draft} :
    ofLegacy options sections = .ok d ↔
      ∃ ps, (sectionsOf sections).mapM (readSection options) = .ok ps ∧
        (ofParts .legacy (.join ps)).TemplatesNamed ∧ d = ofParts .legacy (.join ps) := by
  have hempty : ({ shape := .legacy } : Draft).TemplatesNamed := List.nodup_nil
  rw [ofLegacy, sectionsOf]
  refine (foldlM_eq_ok_iff (fun d p h => ?_) (fun _ _ _ => addSection_eq_ok_iff) hempty).trans ?_
  · rw [TemplatesNamed, add, List.map_append] at h
    exact h.of_append_left
  · simp only [foldl_add, add_empty]

/-- The draft of a single section in the legacy shape. -/
theorem ofLegacy_single_eq_ok_iff {value : Yaml.Value} {d : Draft} :
    ofLegacy options [value] = .ok d ↔
      ∃ p, readSection options ⟨value, Shape.sectionPath 0⟩ = .ok p ∧
        (ofParts .legacy p).TemplatesNamed ∧ d = ofParts .legacy p := by
  have hjoin (p : DraftParts) : DraftParts.join [p] = p := by
    simp only [DraftParts.join, List.flatMap_singleton]
  simp only [ofLegacy_eq_ok_iff, sectionsOf, List.mapIdx_cons, List.mapIdx_nil, mapM_eq_ok_iff,
    List.forall₂_cons_left_iff, List.forall₂_nil_left_iff]
  constructor
  · rintro ⟨_, ⟨p, _, hp, rfl, rfl⟩, h⟩
    exact ⟨p, hp, hjoin p ▸ h⟩
  · rintro ⟨p, hp, h⟩
    exact ⟨[p], ⟨p, [], hp, rfl, rfl⟩, (hjoin p).symm ▸ h⟩

/-- A value that is no mapping lists nothing at any key. -/
theorem addShared_of_not_mapping {root : Located} (h : ¬ root.isMapping = true) (d : Draft) :
    d.addShared options root = .ok d := by
  have hseq (key : String) : root.optSeq key = .ok [] := by
    have hmap : root.value.asMap? = none := by
      simpa [Located.isMapping, Yaml.Value.isMap] using h
    simp only [Located.optSeq, Located.child?, Yaml.Value.get?, hmap, Option.bind_none]
  refine (bind_eq_ok_iff.mpr ⟨[], hseq _, ?_⟩)
  refine (bind_eq_ok_iff.mpr ⟨[], rfl, bind_eq_ok_iff.mpr ⟨[], hseq _, ?_⟩⟩)
  refine (bind_eq_ok_iff.mpr ⟨[], rfl, bind_eq_ok_iff.mpr ⟨[], hseq _, ?_⟩⟩)
  refine (bind_eq_ok_iff.mpr ⟨[], rfl, pure_eq_ok_iff.mpr ?_⟩)
  simp only [List.append_nil]

/-- A document in the current shape lists its maps, and then the rest. -/
theorem ofCurrent_eq (value : Yaml.Value) :
    ofCurrent options value = (do
      let root : Located := ⟨value, "<root>"⟩
      let d ← (← root.documentMaps).foldlM (readAndAddMap options) { shape := .current }
      d.addShared options root) := by
  by_cases h : (⟨value, "<root>"⟩ : Located).isMapping = true
  · simp only [ofCurrent, Located.documentMaps, h, if_true]
  · simp only [ofCurrent, Located.documentMaps, h, addShared_of_not_mapping h]
    rfl

/-- The draft of a document in the **current** shape: it can be read, and no two maps have one
name. -/
theorem ofCurrent_eq_ok_iff {value : Yaml.Value} {d : Draft} :
    ofCurrent options value = .ok d ↔
      ∃ p, readDocument options ⟨value, "<root>"⟩ = .ok p ∧ (p.maps.map (·.name)).Nodup ∧
        d = ofParts .current p := by
  have hempty : ({ shape := .current } : Draft).MapsNamed := List.nodup_nil
  have hmaps (list : List Located) (d : Draft) :
      list.foldlM (readAndAddMap options) { shape := .current } = .ok d ↔
        ∃ maps, list.mapM (readMap options) = .ok maps ∧ (maps.map (·.name)).Nodup ∧
          d = { shape := .current, maps } := by
    refine (foldlM_eq_ok_iff (fun d map h => ?_) (fun _ _ _ => readAndAddMap_eq_ok_iff)
      hempty).trans ?_
    · rw [MapsNamed, withMap, List.map_append] at h
      exact h.of_append_left
    · simp only [foldl_withMap, MapsNamed, List.nil_append]
  simp only [ofCurrent_eq, readDocument, readParts, addShared, bind_eq_ok_iff, pure_eq_ok_iff,
    hmaps, Except.ok.injEq, exists_eq_left', List.mapM_nil]
  constructor
  · rintro ⟨list, hlist, _, ⟨maps, hmaps, hnamed, rfl⟩, cs, hcs, clocks, hclocks, rs, hrs, resets,
      hresets, is, his, interfaces, hinterfaces, rfl⟩
    refine ⟨_, ⟨list, hlist, maps, hmaps, cs, hcs, clocks, hclocks, rs, hrs, resets, hresets, is,
      his, interfaces, hinterfaces, rfl⟩, hnamed, ?_⟩
    simp only [ofParts, mergedMaps_eq_self hnamed, List.nil_append]
  · rintro ⟨_, ⟨list, hlist, maps, hmaps, cs, hcs, clocks, hclocks, rs, hrs, resets, hresets, is,
      his, interfaces, hinterfaces, rfl⟩, hnamed, rfl⟩
    refine ⟨list, hlist, _, ⟨maps, hmaps, hnamed, rfl⟩, cs, hcs, clocks, hclocks, rs, hrs, resets,
      hresets, is, his, interfaces, hinterfaces, ?_⟩
    simp only [ofParts, mergedMaps_eq_self hnamed, List.nil_append]

/-- A document is in one of the two shapes, and its draft consists of **parts that were read**:
those of its sections, or those of its only value. -/
theorem ofSections_eq_ok {sections : List Yaml.Value} {d : Draft}
    (h : ofSections options sections = .ok d) :
    (∃ ps, (sectionsOf sections).mapM (readSection options) = .ok ps ∧
        (ofParts .legacy (.join ps)).TemplatesNamed ∧ d = ofParts .legacy (.join ps)) ∨
      ∃ value p, readDocument options ⟨value, "<root>"⟩ = .ok p ∧ (p.maps.map (·.name)).Nodup ∧
        d = ofParts .current p := by
  obtain ⟨shape, -, h⟩ := bind_eq_ok_iff.mp h
  split at h
  · exact .inr ⟨_, ofCurrent_eq_ok_iff.mp h⟩
  · nomatch h
  · exact .inl (ofLegacy_eq_ok_iff.mp h)

end Draft

/-! ### What was read -/

/-- All parts were **read** from values of the document. -/
structure DraftParts.IsRead (options : Options) (p : DraftParts) : Prop where
  templates : ∀ t ∈ p.templates, ∃ entry, readTemplate options entry = .ok t
  maps : ∀ map ∈ p.maps, ∃ n, readMap options n = .ok map
  interfaces : ∀ i ∈ p.interfaces, ∃ n, readInterface options n = .ok i

/-- All blocks, templates and interfaces of the draft were **read** from values of the document. -/
structure Draft.IsRead (options : Options) (d : Draft) : Prop where
  blocks : ∀ map ∈ d.maps, ∀ b ∈ map.blocks, ∃ parent n, readBlock options parent n = .ok b
  templates : ∀ t ∈ d.templates, ∃ parent list, readFlatEntries options parent list = .ok t.entries
  interfaces : ∀ i ∈ d.interfaces, ∃ n, readInterface options n = .ok i

/-- The templates and the blocks of parts **were read**. -/
theorem readParts_isRead (table : Checked (List (String × Located)))
    (list : Checked (List Located)) (root : Located) :
    Ensures (readParts options table list root) (·.IsRead options) := by
  have each {α β : Type} {f : α → Checked β} (items : List α) :
      Ensures (items.mapM f) fun bs => ∀ b ∈ bs, ∃ a, f a = .ok b :=
    .mapM fun a _ => (Ensures.self _).imp fun _ h => ⟨a, h⟩
  refine .after fun table => (each table).bind fun ts hts => ?_
  refine .after fun list => (each list).bind fun maps hmaps => ?_
  refine .after fun _ => .after fun _ => .after fun _ => .after fun _ => ?_
  exact .after fun list => (each list).bind fun is his => .ok ⟨hts, hmaps, his⟩

/-- So were those of parts that are joined. -/
theorem DraftParts.IsRead.join {ps : List DraftParts} (h : ∀ p ∈ ps, p.IsRead options) :
    (DraftParts.join ps).IsRead options := by
  refine ⟨fun t ht => ?_, fun map hmap => ?_, fun i hi => ?_⟩
  · obtain ⟨p, hp, ht⟩ := List.mem_flatMap.mp ht
    exact (h p hp).templates t ht
  · obtain ⟨p, hp, hmap⟩ := List.mem_flatMap.mp hmap
    exact (h p hp).maps map hmap
  · obtain ⟨p, hp, hi⟩ := List.mem_flatMap.mp hi
    exact (h p hp).interfaces i hi

/-- Merging brings no block that was not there. -/
theorem mergeInto_blocks {Q : DraftBlock → Prop} {maps : List DraftMap} {map : DraftMap}
    (hmaps : ∀ m ∈ maps, ∀ b ∈ m.blocks, Q b) (hmap : ∀ b ∈ map.blocks, Q b) :
    ∀ m ∈ mergeInto maps map, ∀ b ∈ m.blocks, Q b := by
  rw [mergeInto]
  split
  · intro m hm
    obtain ⟨old, hold, rfl⟩ := List.mem_map.mp hm
    split
    · exact List.forall_mem_append.mpr ⟨hmaps old hold, hmap⟩
    · exact hmaps old hold
  · exact List.forall_mem_append.mpr ⟨hmaps, List.forall_mem_singleton.mpr hmap⟩

/-- Merged maps have the blocks of the maps. -/
theorem mergedMaps_blocks {Q : DraftBlock → Prop} {maps : List DraftMap}
    (h : ∀ m ∈ maps, ∀ b ∈ m.blocks, Q b) : ∀ m ∈ mergedMaps maps, ∀ b ∈ m.blocks, Q b := by
  have step (acc : List DraftMap) (hacc : ∀ m ∈ acc, ∀ b ∈ m.blocks, Q b) :
      ∀ m ∈ maps.foldl mergeInto acc, ∀ b ∈ m.blocks, Q b := by
    induction maps generalizing acc with
    | nil => exact hacc
    | cons map maps ih =>
        obtain ⟨hmap, hmaps⟩ := List.forall_mem_cons.mp h
        exact ih hmaps _ (mergeInto_blocks hacc hmap)
  exact step [] (by simp)

/-- The blocks of a map were read. -/
theorem readMap_isRead (n : Located) :
    Ensures (readMap options n) fun map =>
      ∀ b ∈ map.blocks, ∃ parent n, readBlock options parent n = .ok b := by
  refine .after fun _ => .after fun name => .after fun list => ?_
  refine Ensures.bind (Ensures.mapM fun n _ => ?_) fun blocks hblocks => .after fun _ => .ok hblocks
  exact (Ensures.self _).imp fun b hb => ⟨_, n, hb⟩

/-- A draft of parts that were read was read. -/
theorem DraftParts.IsRead.ofParts {shape : Shape} {p : DraftParts} (h : p.IsRead options) :
    (Draft.ofParts shape p).IsRead options := by
  refine ⟨mergedMaps_blocks fun map hmap => ?_, fun t ht => ?_, h.interfaces⟩
  · obtain ⟨n, hn⟩ := h.maps map hmap
    exact readMap_isRead n map hn
  · obtain ⟨entry, hentry⟩ := h.templates t ht
    obtain ⟨entries, hentries, ht⟩ := bind_eq_ok_iff.mp hentry
    obtain rfl := pure_eq_ok_iff.mp ht
    exact ⟨_, _, hentries⟩

/-- The blocks, templates and interfaces of a draft were **read from its document**. -/
theorem Draft.ofSections_isRead (sections : List Yaml.Value) :
    Ensures (ofSections options sections) (IsRead options) := by
  intro d h
  obtain ⟨ps, hps, -, rfl⟩ | ⟨value, p, hp, -, rfl⟩ := ofSections_eq_ok h
  · have hread : ∀ p ∈ ps, p.IsRead options :=
      Ensures.mapM (fun root _ => readParts_isRead _ _ root) ps hps
    exact (DraftParts.IsRead.join hread).ofParts
  · exact DraftParts.IsRead.ofParts (readParts_isRead _ _ _ p hp)

/-- The maps of a draft have **names of their own**. -/
theorem Draft.ofSections_mapsNamed (sections : List Yaml.Value) :
    Ensures (ofSections options sections) MapsNamed := by
  intro d h
  obtain ⟨ps, -, -, rfl⟩ | ⟨value, p, -, -, rfl⟩ := ofSections_eq_ok h
  · exact mergedMaps_names_nodup _
  · exact mergedMaps_names_nodup _

end RegisterMap
