import RegisterMap.Proofs.Presentation

/-!
# The Shapes Agree

A list of memory maps can be written down in three ways: as the whole document, at the key
`memoryMaps` of a document in the current shape, and at the key `memoryMap` of the only section of a
document in the legacy shape. The first two reject a name that comes up again and the third merges
maps of one name, so the shapes agree as long as names are different.

## Main results

* `Model.ofSections_shapes_agree` — the three ways lead to the same models, and fail together.
-/

namespace RegisterMap

open Yaml (Value)

section Shapes

variable {options : Options} {maps : List Value} {shared : List (Value × Value)}

/-! ### Documents in both shapes -/

/-- The mapping that lists these maps at `key`, besides what both shapes share. -/
def mapsAt (key : String) (maps : List Value) (shared : List (Value × Value)) : Value :=
  .map ((.str key, .seq maps) :: shared)

/-- The entries have none of the keys that only one shape has. -/
def OnlyShared (shared : List (Value × Value)) : Prop :=
  ∀ key ∈ ["memoryMaps", "memoryMap", "registerTemplates"], ∀ e ∈ shared, e.1.isKey key = false

/-- The name that a map gives, if it gives one. -/
def mapName? (map : Value) : Option String := ((⟨map, ""⟩ : Located).name).toOption

/-- The maps are found at the key that lists them. -/
theorem mapsAt_get?_self (key : String) :
    (mapsAt key maps shared).get? key = some (.seq maps) := by
  simp [mapsAt, Value.get?, Value.asMap?, Value.untag, Value.isKey]

/-- At any other key there is **what both shapes share**. -/
theorem mapsAt_get? {key other : String} (hne : key ≠ other) :
    (mapsAt key maps shared).get? other = (Value.map shared).get? other := by
  simp [mapsAt, Value.get?, Value.asMap?, Value.untag, Value.isKey, hne]

/-- At the keys of one shape, what both share has nothing. -/
theorem OnlyShared.get? (h : OnlyShared shared) {key : String}
    (hkey : key ∈ ["memoryMaps", "memoryMap", "registerTemplates"]) :
    (Value.map shared).get? key = none := by
  have hfind : (shared.find? fun e => e.1.isKey key) = none :=
    List.find?_eq_none.mpr fun e he => by simp [h key hkey e he]
  simp [Value.get?, Value.asMap?, Value.untag, hfind]

/-- A mapping with the key `memoryMaps` is in **the current shape**. -/
theorem detect_memoryMaps : Shape.detect [mapsAt "memoryMaps" maps shared] = .ok .current := by
  have hmaps : Shape.hasAny ["memoryMaps"] (mapsAt "memoryMaps" maps shared) = true := by
    simp [Shape.hasAny, mapsAt_get?_self]
  rw [mapsAt] at hmaps ⊢
  rw [Shape.detect, if_pos hmaps]

/-- A section with the key `memoryMap` and none of the others is in **the legacy shape**. -/
theorem detect_memoryMap (h : OnlyShared shared) :
    Shape.detect [mapsAt "memoryMap" maps shared] = .ok .legacy := by
  have hmaps : Shape.hasAny ["memoryMaps"] (mapsAt "memoryMap" maps shared) = false := by
    simp [Shape.hasAny, mapsAt_get?, h.get?]
  have hmap : Shape.hasAny Shape.legacyKeys (mapsAt "memoryMap" maps shared) = true := by
    simp [Shape.hasAny, Shape.legacyKeys, mapsAt_get?_self]
  rw [mapsAt] at hmaps hmap ⊢
  rw [Shape.detect, if_neg (by simp [hmaps]), if_pos hmap]

/-! ### What they contribute -/

/-- The maps are read at the path of their key. -/
theorem mapsAt_child?_self (key path : String) :
    (⟨mapsAt key maps shared, path⟩ : Located).child? key = some ⟨.seq maps, s!"{path}.{key}"⟩ := by
  simp only [Located.child?, mapsAt_get?_self]

/-- A document in the current shape contributes **the maps of the list**. -/
theorem documentMaps_mapsAt (maps : List Value) (shared : List (Value × Value)) (path : String) :
    ∃ path', (⟨mapsAt "memoryMaps" maps shared, path⟩ : Located).documentMaps =
      (⟨.seq maps, path'⟩ : Located).asSeq := by
  have hmap : (⟨mapsAt "memoryMaps" maps shared, path⟩ : Located).isMapping = true := rfl
  rw [Located.documentMaps, if_pos hmap, Located.optSeq, mapsAt_child?_self]
  exact ⟨_, rfl⟩

/-- So does a section of the legacy shape. -/
theorem sectionMaps_mapsAt (maps : List Value) (shared : List (Value × Value)) (path : String) :
    ∃ path', (⟨mapsAt "memoryMap" maps shared, path⟩ : Located).sectionMaps =
      (⟨.seq maps, path'⟩ : Located).asSeq := by
  rw [Located.sectionMaps, mapsAt_child?_self]
  exact ⟨_, rfl⟩

/-- Neither brings a template. -/
theorem templateTable_mapsAt (h : OnlyShared shared) (path : String) :
    (⟨mapsAt "memoryMap" maps shared, path⟩ : Located).templateTable = .ok [] := by
  have hget : (mapsAt "memoryMap" maps shared).get? "registerTemplates" = none := by
    rw [mapsAt_get? (by decide), h.get? (by decide)]
  simp only [Located.templateTable, Located.child?, hget]

/-- The same maps, listed at two places, are the same maps. -/
theorem asSeq_respelled (maps : List Value) (path path' : String) :
    Refines (List.Forall₂ (Located.Respells false)) (⟨.seq maps, path⟩ : Located).asSeq
      (⟨.seq maps, path'⟩ : Located).asSeq :=
  Located.Respells.asSeq (.of_value_eq rfl)

/-- What both shapes share is read alike from both. -/
theorem child?_mapsAt {key : String} (hkey : key ∈ sharedKeys) (first second : String)
    (hfirst : first ∉ sharedKeys) (hsecond : second ∉ sharedKeys) (path path' : String) :
    Option.Rel (Located.Respells false) ((⟨mapsAt first maps shared, path⟩ : Located).child? key)
      ((⟨mapsAt second maps shared, path'⟩ : Located).child? key) := by
  have hne {own : String} (hown : own ∉ sharedKeys) : own ≠ key := fun h => hown (h ▸ hkey)
  refine Located.Respells.child?_of_get?_eq ?_
  exact (mapsAt_get? (hne hfirst)).trans (mapsAt_get? (hne hsecond)).symm

/-- A document in the current shape **contributes what the section does**, and the other way
round. -/
theorem readDocument_memoryMaps (h : OnlyShared shared) (path path' : String) :
    Refines DraftParts.Like (readDocument options ⟨mapsAt "memoryMaps" maps shared, path⟩)
        (readSection options ⟨mapsAt "memoryMap" maps shared, path'⟩) ∧
      Refines DraftParts.Like (readSection options ⟨mapsAt "memoryMap" maps shared, path'⟩)
        (readDocument options ⟨mapsAt "memoryMaps" maps shared, path⟩) := by
  obtain ⟨listed, hdocument⟩ := documentMaps_mapsAt maps shared path
  obtain ⟨listed', hsection⟩ := sectionMaps_mapsAt maps shared path'
  rw [readDocument, readSection, hdocument, hsection, templateTable_mapsAt h]
  constructor
  · exact readParts_respelled (.ok .nil) (asSeq_respelled _ _ _) fun key hkey =>
      child?_mapsAt hkey _ _ (by decide) (by decide) _ _
  · exact readParts_respelled (.ok .nil) (asSeq_respelled _ _ _) fun key hkey =>
      child?_mapsAt hkey _ _ (by decide) (by decide) _ _

/-- A name that was read is the name that the map gives. -/
theorem readMap_name (n : Located) :
    Ensures (readMap options n) fun map => mapName? n.value = some map.name := by
  refine .after fun _ => (Ensures.self n.name).bind fun name hname => ?_
  refine .after fun _ => .after fun _ => .after fun _ => .ok ?_
  have hsame : n.Respells false ⟨n.value, ""⟩ := .of_value_eq rfl
  obtain ⟨_, hname', rfl⟩ := hsame.name name hname
  rw [mapName?, hname']
  rfl

/-- The maps of the section have **the names that they give**. -/
theorem readSection_names {p : DraftParts} {path : String}
    (h : readSection options ⟨mapsAt "memoryMap" maps shared, path⟩ = .ok p) :
    p.maps.map (·.name) = maps.filterMap mapName? := by
  obtain ⟨-, ⟨ns, hns, hmaps⟩, -⟩ := readParts_eq_ok_iff.mp h
  obtain ⟨path', hsection⟩ := sectionMaps_mapsAt maps shared path
  have hvalues : maps = ns.map (·.value) :=
    Value.seq.inj (Located.asSeq_values (hsection.symm.trans hns))
  have hnames : ns.map (mapName? ·.value) = p.maps.map (some ·.name) :=
    map_eq_map_iff_forall₂.mpr ((mapM_eq_ok_iff.mp hmaps).imp fun n _ h => readMap_name n _ h)
  have hfilter := congrArg (List.filterMap id) hnames
  rw [hvalues]
  simpa [List.filterMap_map, Function.comp_def] using hfilter.symm

/-- A list of maps **contributes what the document with this list does**, and the other way
round. -/
theorem readDocument_seq (options : Options) (maps : List Value) (path path' : String) :
    Refines DraftParts.Like (readDocument options ⟨.seq maps, path⟩)
        (readDocument options ⟨mapsAt "memoryMaps" maps [], path'⟩) ∧
      Refines DraftParts.Like (readDocument options ⟨mapsAt "memoryMaps" maps [], path'⟩)
        (readDocument options ⟨.seq maps, path⟩) := by
  obtain ⟨listed, hdocument⟩ := documentMaps_mapsAt maps [] path'
  have hseq : (⟨.seq maps, path⟩ : Located).documentMaps =
      (⟨.seq maps, "memoryMaps"⟩ : Located).asSeq := rfl
  have hget {key : String} (hkey : key ∈ sharedKeys) :
      (mapsAt "memoryMaps" maps []).get? key = (Value.seq maps).get? key :=
    mapsAt_get? fun h => absurd (h ▸ hkey) (by decide)
  rw [readDocument, readDocument, hseq, hdocument]
  constructor
  · exact readParts_respelled (.ok .nil) (asSeq_respelled _ _ _) fun key hkey =>
      Located.Respells.child?_of_get?_eq (hget hkey).symm
  · exact readParts_respelled (.ok .nil) (asSeq_respelled _ _ _) fun key hkey =>
      Located.Respells.child?_of_get?_eq (hget hkey)

/-! ### Documents -/

/-- The document in the current shape is drafted **like the section**. -/
theorem ofCurrent_memoryMaps (h : OnlyShared shared) :
    Refines Draft.Like (Draft.ofCurrent options (mapsAt "memoryMaps" maps shared))
      (Draft.ofLegacy options [mapsAt "memoryMap" maps shared]) := by
  intro d hd
  obtain ⟨p, hp, -, rfl⟩ := Draft.ofCurrent_eq_ok_iff.mp hd
  obtain ⟨p', hp', hlike⟩ := (readDocument_memoryMaps h "<root>" (Shape.sectionPath 0)).1 p hp
  obtain ⟨hnamed, hlike⟩ := hlike.ofParts .current .legacy (templatesNamed_of_readDocument hp)
  exact ⟨_, Draft.ofLegacy_single_eq_ok_iff.mpr ⟨p', hp', hnamed, rfl⟩, hlike⟩

/-- Where names are different, the section is drafted **like the document**. -/
theorem ofLegacy_memoryMap (h : OnlyShared shared) (hnames : (maps.filterMap mapName?).Nodup) :
    Refines Draft.Like (Draft.ofLegacy options [mapsAt "memoryMap" maps shared])
      (Draft.ofCurrent options (mapsAt "memoryMaps" maps shared)) := by
  intro d hd
  obtain ⟨p, hp, hnamed, rfl⟩ := Draft.ofLegacy_single_eq_ok_iff.mp hd
  obtain ⟨p', hp', hlike⟩ := (readDocument_memoryMaps h "<root>" _).2 p hp
  have hnames' : (p'.maps.map (·.name)).Nodup := by
    rwa [← map_eq_map_iff_forall₂.mpr (hlike.maps.imp fun _ _ h => h.name), readSection_names hp]
  exact ⟨_, Draft.ofCurrent_eq_ok_iff.mpr ⟨p', hp', hnames', rfl⟩,
    (hlike.ofParts .legacy .current hnamed).2⟩

/-- **The shapes agree.** Maps with names of their own lead to the same model, or to none, at the
key `memoryMaps` of a document in the current shape, at the key `memoryMap` of a single section
without templates, and, where nothing else is there, as the whole document. -/
theorem Model.ofSections_shapes_agree (options : Options)
    (hnames : (maps.filterMap mapName?).Nodup) (hshared : OnlyShared shared) :
    (∀ m, ofSections options [mapsAt "memoryMaps" maps shared] = .ok m ↔
      ofSections options [mapsAt "memoryMap" maps shared] = .ok m) ∧
    (∀ m, ofSections options [.seq maps] = .ok m ↔
      ofSections options [mapsAt "memoryMaps" maps []] = .ok m) := by
  constructor
  · rw [ofSections_of_current detect_memoryMaps, ofSections_of_legacy (detect_memoryMap hshared)]
    exact ((ofCurrent_memoryMaps hshared).resolve options).ok_iff
      ((ofLegacy_memoryMap hshared hnames).resolve options)
  · obtain ⟨hseq, hmaps⟩ := readDocument_seq options maps "<root>" "<root>"
    rw [ofSections_of_current detect_memoryMaps, ofSections_of_current rfl]
    exact ((Draft.ofCurrent_like hseq).resolve options).ok_iff
      ((Draft.ofCurrent_like hmaps).resolve options)

end Shapes

/-! ### Two maps and a clock -/

namespace TwoMaps

/-- A map with a block, and a map without. -/
def maps : List Value :=
  [.map [(.str "name", .str "soc"), (.str "addressBlocks",
      .seq [.map [(.str "name", .str "unit"), (.str "offset", .int 16)]])],
    .map [(.str "name", .str "debug")]]

/-- The clock that comes with them. -/
def shared : List (Value × Value) := [(.str "clocks", .seq [.str "clk"])]

/-- The model of the maps, without the clock. -/
def model : Model :=
  { memoryMaps :=
      [{ name := "soc", blocks := [{ name := "unit", baseOffset := 16, size := 4096 }] },
        { name := "debug" }] }

/-- The maps resolve in all three ways. -/
theorem ofSections_shapes_agree_maps :
    Model.ofSections {} [mapsAt "memoryMap" maps shared] =
        .ok { model with clocks := [{ name := "clk" }] } ∧
      Model.ofSections {} [.seq maps] = .ok model := by
  have hnames : (maps.filterMap mapName?).Nodup := by decide +kernel
  have hshared : OnlyShared shared := by
    unfold OnlyShared
    decide
  have hagree := Model.ofSections_shapes_agree {} hnames hshared
  exact ⟨(hagree.1 _).mp (eq_ok_of_toOption (by decide +kernel)),
    (hagree.2 _).mpr (eq_ok_of_toOption (by decide +kernel))⟩

end TwoMaps

end RegisterMap
