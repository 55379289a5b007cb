import RegisterMap.Document.Resolving
import RegisterMap.Model.Fingerprint
import RegisterMap.Proofs.Likeness
import RegisterMap.Proofs.Respelling

/-!
# Presentation Does Not Matter

A document may be presented in several ways: the entries of its mappings may come in any order, and
its numbers may be written as text in any radix. All of them are read alike, part by part, so they
resolve to the same model.

## Main results

* `readParts_respelled` — what a section contributes.
* `Model.ofSections_respelled` — the model of a document.
-/

namespace RegisterMap

variable {options : Options} {numbers : Bool} {n n' : Located}

/-! ### Keywords and numbers -/

/-- A keyword is the same word. -/
theorem Located.Respells.asKeyword (h : n.Respells numbers n') :
    Refines Eq n.asKeyword n'.asKeyword :=
  h.asStr.bindEq fun _ => .refl _

/-- A usage is read as **the same usage**. -/
theorem readUsage_respelled (h : n.Respells numbers n') :
    Refines Eq (readUsage n) (readUsage n') := by
  refine h.asKeyword.bindEq fun word => ?_
  repeat' split
  all_goals first | exact .refl _ | exact .failAt _ _

/-- An access policy is read as the same policy. -/
theorem readAccess_respelled (h : n.Respells numbers n') :
    Refines Eq (readAccess n) (readAccess n') := by
  refine h.asStr.bindEq fun text => ?_
  split
  · exact .refl _
  · exact .failAt _ _

/-- A polarity is read as the same polarity. -/
theorem readPolarity_respelled (h : n.Respells numbers n') :
    Refines Eq (readPolarity n) (readPolarity n') := by
  refine h.asKeyword.bindEq fun word => ?_
  repeat' split
  all_goals first | exact .refl _ | exact .failAt _ _

/-- The mode of an interface is read as the same mode. -/
theorem readMode_respelled (h : n.Respells numbers n') :
    Refines Eq (readMode n) (readMode n') := by
  refine h.asKeyword.bindEq fun word => ?_
  repeat' split
  all_goals first | exact .refl _ | exact .failAt _ _

/-- The count of an array is the same, and within the same limit. -/
theorem readCount_respelled (h : n.Respells numbers n') :
    Refines Eq (readCount options n) (readCount options n') := by
  refine (h.require "count").bind fun _ _ h => h.asNat64.bindEq fun count => ?_
  repeat' split
  all_goals first | exact .refl _ | exact .failAt _ _

/-! ### Fields and registers -/

/-- A field is placed at **the same bits**, by either way of saying which. -/
theorem readPlacement_respelled (h : n.Respells numbers n') :
    Refines Eq (readPlacement n) (readPlacement n') := by
  have hwidth : Refines Eq (do return (← n.optNat32 ["bitWidth", "width"]).getD 1 : Checked UInt32)
      (do return (← n'.optNat32 ["bitWidth", "width"]).getD 1) :=
    (h.optNat32 _).bindEq fun _ => .refl _
  have hbits := h.child? "bits"
  have hoffset := h.child? "bitOffset"
  rw [readPlacement, readPlacement]
  generalize n.child? "bits" = bits at hbits
  generalize n'.child? "bits" = bits' at hbits
  generalize n.child? "bitOffset" = offset at hoffset
  generalize n'.child? "bitOffset" = offset' at hoffset
  cases hbits with
  | some hbits => exact hbits.asStr.bindEq fun _ => .refl _
  | none =>
      cases hoffset with
      | some hoffset =>
          exact hoffset.asNat32.bindEq fun _ => hwidth.bindEq fun _ => .refl _
      | none => exact hwidth.bindEq fun _ => .refl _

/-- A field is read alike, whatever its register is called. -/
theorem readField_respelled (h : n.Respells numbers n') (register other : String) :
    Refines DraftField.Like (readField register n) (readField other n') := by
  refine (h.expectMapping _).bindEq fun _ => h.name.bindEq fun name => ?_
  have h := h.renamed s!"{register}.{name}" s!"{other}.{name}"
  refine (readPlacement_respelled h).bindEq fun placement => ?_
  refine (Refines.optionMapM (h.child? _) fun _ _ => readAccess_respelled).bindEq fun access => ?_
  refine (h.optStr _).bindEq fun _ => (h.optNat64 _).bindEq fun _ => ?_
  exact .ok ⟨_, rfl⟩

/-- A register is read alike, **its fields one for one**. -/
theorem readRegister_respelled (h : n.Respells numbers n') (parent other : String) :
    Refines DraftRegister.Like (readRegister options parent n)
      (readRegister options other n') := by
  refine h.name.bindEq fun name => ?_
  have h := h.renamed s!"{parent}.{name}" s!"{other}.{name}"
  refine (h.optNat32 _).bindEq fun size => .check ?_
  refine (Refines.optionMapM (h.child? _) fun _ _ => readAccess_respelled).bindEq fun access => ?_
  refine (h.optSeq _).bind fun _ _ hlist => ?_
  refine (Refines.mapM hlist fun _ _ h => readField_respelled h _ _).bind fun _ _ hfields => ?_
  refine (h.optStr _).bindEq fun _ => (h.optNat64 _).bindEq fun _ => ?_
  refine (h.optNat64 _).bindEq fun _ => ?_
  exact .ok (DraftRegister.like_of_fields rfl hfields)

/-! ### Register lists -/

/-- A gap of reserved bytes is as wide. -/
theorem readReserved_respelled {item item' bytes bytes' : Located}
    (hitem : item.Respells numbers item') (hbytes : bytes.Respells numbers bytes') :
    Refines DraftEntry.Like (readReserved item bytes) (readReserved item' bytes') := by
  rw [readReserved, readReserved, hitem.stringKeyCount]
  refine .check ?_
  exact hbytes.asNat64.bindEq fun _ => .ok (.reserved _ _ _)

/-- Entries of a register list are read alike if arrays are. -/
theorem readEntry_respelled (h : n.Respells numbers n') (parent other : String)
    {array array' : Located → Option Located → Checked DraftEntry}
    (harray : ∀ item item' generate generate', item.Respells numbers item' →
      Option.Rel (Located.Respells numbers) generate generate' →
      Refines DraftEntry.Like (array item generate) (array' item' generate')) :
    Refines DraftEntry.Like (readEntry options parent array n)
      (readEntry options other array' n') := by
  refine (h.expectMapping _).bindEq fun _ => ?_
  have hgenerate := h.child? "generateArray"
  have hreserved := h.child? "reserved"
  rw [h.has]
  generalize n.child? "generateArray" = generate at hgenerate
  generalize n'.child? "generateArray" = generate' at hgenerate
  generalize n.child? "reserved" = bytes at hreserved
  generalize n'.child? "reserved" = bytes' at hreserved
  cases hgenerate with
  | some hgenerate => exact harray _ _ _ _ h (.some hgenerate)
  | none =>
      cases n.has "count" with
      | true => exact harray _ _ _ _ h .none
      | false =>
          cases hreserved with
          | some hbytes => exact readReserved_respelled h hbytes
          | none => exact (readRegister_respelled h _ _).bind fun _ _ h => .ok (.register h)

/-- A template lists its registers and gaps **in the same order**. -/
theorem readFlatEntries_respelled (h : n.Respells numbers n') (parent other : String) :
    Refines (List.Forall₂ DraftEntry.Like) (readFlatEntries options parent n)
      (readFlatEntries options other n') := by
  refine h.asSeq.bind fun _ _ hlist => Refines.mapM hlist fun _ _ h => ?_
  exact readEntry_respelled h _ _ fun _ _ _ _ _ _ => .failAt _ _

/-- An array is read alike if the template in it is. -/
theorem readArrayParts_respelled (h : n.Respells numbers n') (name : String)
    (offsetKeys : List String) {body body' : Checked (ArrayBody DraftEntry)}
    (hbody : Refines ArrayBody.Like body body') :
    Refines DraftArray.Like (readArrayParts options n name offsetKeys body)
      (readArrayParts options n' name offsetKeys body') := by
  refine (h.optNat64 _).bindEq fun _ => (readCount_respelled h).bindEq fun _ => ?_
  refine (h.optNat64 _).bindEq fun _ => (h.optNat64 _).bindEq fun _ => ?_
  refine (h.optStr _).bindEq fun _ => ?_
  exact hbody.bind fun _ _ hbody => .ok ⟨_, _, rfl, hbody⟩

/-- An array with its template in place is read alike. -/
theorem readInlineArray_respelled (h : n.Respells numbers n') (parent other : String) :
    Refines DraftArray.Like (readInlineArray options parent n)
      (readInlineArray options other n') := by
  refine h.name.bindEq fun name => ?_
  have h := h.renamed s!"{parent}.{name}" s!"{other}.{name}"
  refine (h.require _).bind fun _ _ hlist => readArrayParts_respelled h _ _ ?_
  exact (readFlatEntries_respelled hlist _ _).bind fun _ _ hentries =>
    .ok (.inline (resolveTemplate_like hentries 0))

/-- An array that names its template names **the same one**. -/
theorem readTemplateArray_respelled (h : n.Respells numbers n') (parent other : String) :
    Refines DraftArray.Like (readTemplateArray options parent n)
      (readTemplateArray options other n') := by
  refine (h.expectMapping _).bindEq fun _ => h.name.bindEq fun name => ?_
  have h := h.renamed s!"{parent}.{name}" s!"{other}.{name}"
  refine (h.require _).bind fun _ _ htemplate => htemplate.asStr.bindEq fun template => ?_
  exact readArrayParts_respelled h _ _ (.ok (.template template))

/-- A block lists its entries in the same order, arrays included. -/
theorem readEntries_respelled (h : n.Respells numbers n') (parent other : String) :
    Refines (List.Forall₂ DraftEntry.Like) (readEntries options parent n)
      (readEntries options other n') := by
  refine h.asSeq.bind fun _ _ hlist => Refines.mapM hlist fun _ _ h => ?_
  refine readEntry_respelled h _ _ fun _ _ _ _ h hgenerate => ?_
  cases hgenerate with
  | some h => exact (readTemplateArray_respelled h _ _).bind fun _ _ h => .ok (.array h)
  | none => exact (readInlineArray_respelled h _ _).bind fun _ _ h => .ok (.array h)

/-! ### Blocks and maps -/

/-- A block is read alike, **its entries one for one**. -/
theorem readBlock_respelled (h : n.Respells numbers n') (map other : String) :
    Refines DraftBlock.Like (readBlock options map n) (readBlock options other n') := by
  refine (h.expectMapping _).bindEq fun _ => h.name.bindEq fun name => ?_
  have h := h.renamed s!"{map}.{name}" s!"{other}.{name}"
  have hregisters := h.child? "registers"
  refine (h.optNat64 _).bindEq fun offset => ?_
  cases offset with
  | none => exact fun _ h => nomatch h
  | some offset =>
      refine Refines.first fun _ => ?_
      refine (Refines.optionMapM (h.child? _) fun _ _ => readUsage_respelled).bindEq fun usage => ?_
      generalize (n.renamed _).child? "registers" = list at hregisters ⊢
      generalize (n'.renamed _).child? "registers" = list' at hregisters ⊢
      cases hregisters with
      | some hlist =>
          exact (readEntries_respelled hlist _ _).bind fun _ _ hentries =>
            (h.optStr _).bindEq fun _ => (h.optNat64 _).bindEq fun _ => .ok ⟨_, _, rfl, hentries⟩
      | none =>
          exact Refines.bind (R := List.Forall₂ DraftEntry.Like) (.ok .nil) fun _ _ hentries =>
            (h.optStr _).bindEq fun _ => (h.optNat64 _).bindEq fun _ => .ok ⟨_, _, rfl, hentries⟩

/-- A memory map is read alike, its blocks one for one. -/
theorem readMap_respelled (h : n.Respells numbers n') :
    Refines DraftMap.Like (readMap options n) (readMap options n') := by
  refine (h.expectMapping _).bindEq fun _ => h.name.bindEq fun name => ?_
  have h := h.renamed name name
  refine (h.optSeq _).bind fun _ _ hlist => ?_
  refine (Refines.mapM hlist fun _ _ h => readBlock_respelled h _ _).bind fun _ _ hblocks => ?_
  exact (h.optStr _).bindEq fun _ => .ok ⟨_, rfl, hblocks⟩

/-! ### Clocks, resets and interfaces -/

/-- A clock is read as the same clock. -/
theorem readClock_respelled (h : n.Respells numbers n') :
    Refines Eq (readClock n) (readClock n') := by
  refine h.asStr?_orMapping "clock" (fun _ => .refl _) ?_
  exact h.name.bindEq fun _ => (h.optNat64 _).bindEq fun _ => .refl _

/-- A reset is read as the same reset. -/
theorem readReset_respelled (h : n.Respells numbers n') :
    Refines Eq (readReset n) (readReset n') := by
  refine h.asStr?_orMapping "reset" (fun _ => .refl _) ?_
  refine (Refines.optionMapM (h.child? _) fun _ _ => readPolarity_respelled).bindEq fun _ => ?_
  exact h.name.bindEq fun _ => .refl _

/-- The shape of an array of interfaces is the same. -/
theorem readInterfaceArray_respelled (h : n.Respells numbers n') :
    Refines Eq (readInterfaceArray options n) (readInterfaceArray options n') := by
  refine (h.expectMapping _).bindEq fun _ => (readCount_respelled h).bindEq fun _ => ?_
  refine (h.optNat64 _).bindEq fun _ => (h.optNat64 _).bindEq fun _ => ?_
  exact (h.optStr _).bindEq fun _ => (h.optStr _).bindEq fun _ => .refl _

/-- An optional text under one of two keys is the same. -/
theorem readEither_respelled (h : n.Respells numbers n') (first second : String) :
    Refines Eq (readEither n first second) (readEither n' first second) := by
  refine (h.optStr _).bindEq fun s => ?_
  cases s with
  | some s => exact .refl _
  | none => exact h.optStr _

/-- An interface is read as the same interface. -/
theorem readInterface_respelled (h : n.Respells numbers n') :
    Refines Eq (readInterface options n) (readInterface options n') := by
  refine (h.expectMapping _).bindEq fun _ => h.name.bindEq fun name => ?_
  have h := h.renamed name name
  refine (Refines.optionMapM (h.child? _) fun _ _ => readMode_respelled).bindEq fun mode => ?_
  refine (Refines.optionMapM (h.child? _) fun _ _ => readInterfaceArray_respelled).bindEq ?_
  intro array
  refine (readEither_respelled h _ _).bindEq fun _ => (h.optNat64 _).bindEq fun _ => ?_
  refine (readEither_respelled h _ _).bindEq fun _ => (h.optStr _).bindEq fun _ => ?_
  exact (h.optStr _).bindEq fun _ => (h.optStr _).bindEq fun _ => .refl _

/-! ### Sections -/

/-- A template is read alike, under its name. -/
theorem readTemplate_respelled {entry entry' : String × Located}
    (h : Located.RespellsNamed numbers entry entry') :
    Refines DraftTemplate.Like (readTemplate options entry) (readTemplate options entry') :=
  (readFlatEntries_respelled h.2 _ _).bind fun _ _ hentries => .ok ⟨h.1.symm, hentries⟩

/-- The table of templates holds the same names, **in any order**. -/
theorem Located.Respells.templateTable (h : n.Respells numbers n') :
    Refines (PermRel (Located.RespellsNamed numbers)) n.templateTable n'.templateTable := by
  have hchild := h.child? "registerTemplates"
  rw [Located.templateTable, Located.templateTable]
  generalize n.child? _ = c at hchild
  generalize n'.child? _ = c' at hchild
  cases hchild with
  | none => exact .ok .nil
  | some h => exact h.entries

/-- The maps of a section are compared **map by map**. -/
theorem Located.sectionMaps_refines {R S : Located → Located → Prop}
    (h : Option.Rel R (n.child? "memoryMap") (n'.child? "memoryMap"))
    (hR : ∀ c c', R c c' → Refines (List.Forall₂ S) c.asSeqOrOne c'.asSeqOrOne) :
    Refines (List.Forall₂ S) n.sectionMaps n'.sectionMaps := by
  rw [Located.sectionMaps, Located.sectionMaps]
  generalize n.child? "memoryMap" = c at h
  generalize n'.child? "memoryMap" = c' at h
  cases h with
  | none => exact .ok .nil
  | some h => exact hR _ _ h

/-- A section lists its memory maps one for one. -/
theorem Located.Respells.sectionMaps (h : n.Respells numbers n') :
    Refines (List.Forall₂ (Located.Respells numbers)) n.sectionMaps n'.sectionMaps :=
  Located.sectionMaps_refines (h.child? "memoryMap") fun _ _ h => h.asSeqOrOne

/-- So does a document in the current shape. -/
theorem Located.Respells.documentMaps (h : n.Respells numbers n') :
    Refines (List.Forall₂ (Located.Respells numbers)) n.documentMaps n'.documentMaps := by
  rw [Located.documentMaps, Located.documentMaps, h.isMapping]
  split
  · exact h.optSeq _
  · exact (h.renamed _ _).asSeq

/-- The keys that documents in both shapes may have besides their maps. -/
def sharedKeys : List String := ["clocks", "resets", "busInterfaces"]

/-- A section **contributes the same** if its templates, its maps and its shared keys give the same,
with its templates in whatever order. -/
theorem readParts_respelled {table table' : Checked (List (String × Located))}
    {list list' : Checked (List Located)}
    (htable : Refines (PermRel (Located.RespellsNamed numbers)) table table')
    (hlist : Refines (List.Forall₂ (Located.Respells numbers)) list list')
    (hshared : ∀ key ∈ sharedKeys,
      Option.Rel (Located.Respells numbers) (n.child? key) (n'.child? key)) :
    Refines DraftParts.Like (readParts options table list n)
      (readParts options table' list' n') := by
  have hseq {key : String} (hkey : key ∈ sharedKeys) :=
    Located.Respells.optSeq_of_child? (hshared key hkey)
  refine htable.bind fun _ _ htable => ?_
  refine (Refines.mapMPerm htable fun _ _ => readTemplate_respelled).bind fun _ _ htemplates => ?_
  refine hlist.bind fun _ _ hlist => ?_
  refine (Refines.mapM hlist fun _ _ => readMap_respelled).bind fun _ _ hmaps => ?_
  refine (hseq (by decide)).bind fun _ _ hclocks => ?_
  refine (Refines.mapMEq hclocks fun _ _ => readClock_respelled).bindEq fun _ => ?_
  refine (hseq (by decide)).bind fun _ _ hresets => ?_
  refine (Refines.mapMEq hresets fun _ _ => readReset_respelled).bindEq fun _ => ?_
  refine (hseq (by decide)).bind fun _ _ hinterfaces => ?_
  refine (Refines.mapMEq hinterfaces fun _ _ => readInterface_respelled).bindEq fun _ => ?_
  exact .ok ⟨htemplates, hmaps, rfl, rfl, rfl⟩

/-- A section is read alike, **part by part**. -/
theorem readSection_respelled (h : n.Respells numbers n') :
    Refines DraftParts.Like (readSection options n) (readSection options n') :=
  readParts_respelled h.templateTable h.sectionMaps fun key _ => h.child? key

/-- So is a document in the current shape. -/
theorem readDocument_respelled (h : n.Respells numbers n') :
    Refines DraftParts.Like (readDocument options n) (readDocument options n') :=
  readParts_respelled (.ok .nil) h.documentMaps fun key _ => h.child? key

/-! ### Documents -/

variable {sections sections' : List Yaml.Value}

/-- All that **the shape of a document** depends on is the same: what is a sequence or a mapping,
and which keys have a value. -/
structure Shape.SameOutline (v w : Yaml.Value) : Prop where
  seq : ∀ items, v = .seq items → ∃ items', w = .seq items'
  map : ∀ entries, v = .map entries → ∃ entries', w = .map entries'
  isMap : v.isMap = w.isMap
  keys : ∀ key, (v.get? key).isSome = (w.get? key).isSome

/-- Sections of one outline have one of some keys, or neither has. -/
theorem Shape.SameOutline.hasAny {v w : Yaml.Value} (h : SameOutline v w) (keys : List String) :
    Shape.hasAny keys v = Shape.hasAny keys w := by
  simp only [Shape.hasAny, h.keys]

/-- A list of sections is turned down **by its outline**. -/
theorem Shape.checkSections_outline (h : List.Forall₂ SameOutline sections sections') (i : Nat) :
    checkSections i sections = checkSections i sections' := by
  induction h generalizing i with
  | nil => rfl
  | cons h _ ih =>
      rw [checkSections, checkSections, ih, checkSection, checkSection, h.isMap]
      simp only [h.hasAny]

/-- The shape of several sections. -/
theorem Shape.detect_several (v w : Yaml.Value) (rest : List Yaml.Value) :
    detect (v :: w :: rest) = (do
      checkSections 0 (v :: w :: rest)
      if (v :: w :: rest).any (hasAny legacyKeys) then pure .legacy
      else failAt "<root>" .noMapOrTemplateSection) := by
  cases v <;> rfl

/-- A document keeps its shape **if its outline stays**. -/
theorem Shape.detect_outline (h : List.Forall₂ SameOutline sections sections') :
    Refines Eq (detect sections) (detect sections') := by
  cases h with
  | nil => exact .refl _
  | @cons v w vs ws h hrest =>
      cases hrest with
      | nil =>
          cases v with
          | seq items =>
              obtain ⟨items', rfl⟩ := h.seq items rfl
              exact .refl _
          | map entries =>
              obtain ⟨entries', rfl⟩ := h.map entries rfl
              rw [detect, detect, h.hasAny, h.hasAny]
              exact .refl _
          | _ => exact .failAt _ _
      | @cons v' w' vs ws h' hrest =>
          have hall := List.Forall₂.cons h (.cons h' hrest)
          have hkeys : (v :: v' :: vs).map (hasAny legacyKeys) =
              (w :: w' :: ws).map (hasAny legacyKeys) :=
            map_eq_map_iff_forall₂.mpr (hall.imp fun _ _ h => h.hasAny _)
          have hany := congrArg (·.any id) hkeys
          simp only [List.any_map, Function.id_comp] at hany
          rw [detect_several, detect_several, checkSections_outline hall, hany]
          exact .refl _

/-- A respelled section keeps its outline. -/
theorem Shape.SameOutline.of_respells {v w : Yaml.Value} (h : v.Respells numbers .value w) :
    SameOutline v w where
  seq items hv := by
    subst hv
    obtain ⟨items', rfl, -⟩ := h.of_seq
    exact ⟨items', rfl⟩
  map entries hv := by
    subst hv
    obtain ⟨entries', rfl, -⟩ := h.of_map
    exact ⟨entries', rfl⟩
  isMap := h.isMap.symm
  keys key := isSome_eq_of_rel (h.get? key)

/-- A document in the current shape has no templates. -/
theorem templatesNamed_of_readDocument {root : Located} {p : DraftParts} {shape : Shape}
    (h : readDocument options root = .ok p) : (Draft.ofParts shape p).TemplatesNamed := by
  have hnone : Ensures (readDocument options root) fun p => p.templates = [] := by
    refine Ensures.bind (P := (· = [])) (.ok rfl) ?_
    rintro _ rfl
    refine Ensures.bind (P := (· = [])) (.ok rfl) ?_
    rintro _ rfl
    refine .after fun _ => .after fun _ => .after fun _ => .after fun _ => .after fun _ => ?_
    exact .after fun _ => .after fun _ => .after fun _ => .ok rfl
  rw [Draft.TemplatesNamed, Draft.ofParts, hnone p h]
  exact List.nodup_nil

/-- Sections of the legacy shape are drafted alike. -/
theorem Draft.ofLegacy_respelled
    (h : List.Forall₂ (Yaml.Value.Respells numbers .value) sections sections') :
    Refines Draft.Like (ofLegacy options sections) (ofLegacy options sections') := by
  intro d hd
  obtain ⟨ps, hps, hnamed, rfl⟩ := ofLegacy_eq_ok_iff.mp hd
  have hsections : List.Forall₂ (Located.Respells numbers) (sectionsOf sections)
      (sectionsOf sections') := rel_mapIdx h fun _ _ _ h => h
  obtain ⟨ps', hps', hlike⟩ := Refines.mapM hsections (fun _ _ => readSection_respelled) ps hps
  obtain ⟨hnamed', hlike⟩ := (DraftParts.Like.join hlike).ofParts .legacy .legacy hnamed
  exact ⟨_, ofLegacy_eq_ok_iff.mpr ⟨ps', hps', hnamed', rfl⟩, hlike⟩

/-- Documents in the current shape that **contribute the same** make drafts that are alike. -/
theorem Draft.ofCurrent_like {v w : Yaml.Value}
    (h : Refines DraftParts.Like (readDocument options ⟨v, "<root>"⟩)
      (readDocument options ⟨w, "<root>"⟩)) :
    Refines Draft.Like (ofCurrent options v) (ofCurrent options w) := by
  intro d hd
  obtain ⟨p, hp, hnamed, rfl⟩ := ofCurrent_eq_ok_iff.mp hd
  obtain ⟨p', hp', hlike⟩ := h p hp
  have hnamed' : (p'.maps.map (·.name)).Nodup := by
    rwa [← map_eq_map_iff_forall₂.mpr (hlike.maps.imp fun _ _ h => h.name)]
  exact ⟨_, ofCurrent_eq_ok_iff.mpr ⟨p', hp', hnamed', rfl⟩,
    (hlike.ofParts .current .current (templatesNamed_of_readDocument hp)).2⟩

/-- **Drafts are alike** for documents that differ in their presentation. -/
theorem Draft.ofSections_like
    (h : List.Forall₂ (Yaml.Value.Respells numbers .value) sections sections') :
    Refines Draft.Like (ofSections options sections) (ofSections options sections') := by
  refine (Shape.detect_outline (h.imp fun _ _ h => .of_respells h)).bindEq fun shape => ?_
  cases shape with
  | legacy => exact ofLegacy_respelled h
  | current =>
      cases h with
      | nil => exact .failAt _ _
      | cons h _ => exact ofCurrent_like (readDocument_respelled h)

/-- What the model of a document of the legacy shape is made of. -/
theorem Model.ofSections_of_legacy (hshape : Shape.detect sections = .ok .legacy) :
    ofSections options sections =
      (do (← Draft.ofLegacy options sections).resolve options) := by
  rw [ofSections, Draft.ofSections, hshape]
  rfl

/-- What the model of a document of the current shape is made of. -/
theorem Model.ofSections_of_current {value : Yaml.Value}
    (hshape : Shape.detect [value] = .ok .current) :
    ofSections options [value] = (do (← Draft.ofCurrent options value).resolve options) := by
  rw [ofSections, Draft.ofSections, hshape]
  rfl

/-- Whatever a document resolves to, it resolves to **however it is spelled**. -/
theorem Model.ofSections_reproduced
    (h : List.Forall₂ (Yaml.Value.Respells numbers .value) sections sections') :
    Refines Eq (ofSections options sections) (ofSections options sections') :=
  (Draft.ofSections_like h).resolve options

/-- **Presentation does not matter.** Sections that resolve do so in any order of the entries of
their mappings, and with their numbers written as text, to the same model; sections that fail do so
in any order. -/
theorem Model.ofSections_respelled (options : Options) (sections sections' : List Yaml.Value) :
    (List.Forall₂ (Yaml.Value.Respells true .value) sections sections' →
      ∀ m, ofSections options sections = .ok m →
        ∃ m', ofSections options sections' = .ok m' ∧ m' = m ∧ m'.fingerprint = m.fingerprint) ∧
    (List.Forall₂ (Yaml.Value.Respells false .value) sections sections' →
      ∀ e, ofSections options sections = .error e →
        ∃ e', ofSections options sections' = .error e') := by
  constructor
  · intro h m hm
    obtain ⟨m', hm', rfl⟩ := ofSections_reproduced h m hm
    exact ⟨m, hm', rfl, rfl⟩
  · intro h e he
    have hback : List.Forall₂ (Yaml.Value.Respells false .value) sections' sections :=
      h.flip.imp fun _ _ h => h.symm
    cases hm' : ofSections options sections' with
    | error e' => exact ⟨e', rfl⟩
    | ok m' =>
        obtain ⟨m, hm, -⟩ := ofSections_reproduced hback m' hm'
        rw [he] at hm
        nomatch hm

/-! ### A block with an offset in hexadecimal -/

namespace HexOffset

open Yaml (Value)
open Yaml.Value (Respells KeysDistinct)

/-- A block that gives its name, and its offset as a number. -/
def block : Value := .map [(.str "name", .str "unit"), (.str "offset", .int 4096)]

/-- The same block, which gives its offset first, in hexadecimal. -/
def respelled : Value := .map [(.str "offset", .str "0X1_000"), (.str "name", .str "unit")]

/-- A document with this block alone. -/
def document (block : Value) : Value :=
  .map [(.str "memoryMaps",
    .seq [.map [(.str "name", .str "soc"), (.str "addressBlocks", .seq [block])]])]

/-- Two keys that are different are distinct. -/
theorem keysDistinct_pair {k l : String} (hne : k ≠ l) (v w : Value) :
    KeysDistinct [(.str k, v), (.str l, w)] := by
  simp only [KeysDistinct, List.pairwise_pair, Yaml.Value.isKey, beq_iff_eq]
  rintro _ rfl
  exact beq_eq_false_iff_ne.mpr hne.symm

/-- The block is respelled **by its offset**, and by the order of its entries. -/
theorem block_respells : Respells true .value block respelled := by
  have hoffset : Respells true .value (.int 4096) (.str "0X1_000") :=
    .number (k := 4096) rfl (by decide +kernel)
  exact .map (.cons (.refl _ _) (.refl _ _) (.cons (.refl _ _) hoffset .nil)) (.swap _ _ _)
    (.inl (keysDistinct_pair (by decide) _ _))

/-- A document around respelled blocks is respelled. -/
theorem document_respells {v w : Value} (h : Respells numbers .value v w) :
    Respells numbers .value (document v) (document w) := by
  have hblocks : Respells numbers .value (.seq [v]) (.seq [w]) := .seq (.cons h .nil)
  have hmap : Respells numbers .value
      (.map [(.str "name", .str "soc"), (.str "addressBlocks", .seq [v])])
      (.map [(.str "name", .str "soc"), (.str "addressBlocks", .seq [w])]) :=
    .map (.cons (.refl _ _) (.refl _ _) (.cons (.refl _ _) hblocks .nil)) (.refl _) (.inr rfl)
  exact .map (.cons (.refl _ _) (.seq (.cons hmap .nil)) .nil) (.refl _) (.inr rfl)

/-- A block that gives no name, and the same with its keys exchanged. -/
def nameless : Value × Value :=
  (.map [(.str "offset", .int 0), (.str "usage", .str "memory")],
    .map [(.str "usage", .str "memory"), (.str "offset", .int 0)])

/-- The block without a name is respelled by the order of its entries. -/
theorem nameless_respells : Respells false .value nameless.1 nameless.2 :=
  .map (.cons (.refl _ _) (.refl _ _) (.cons (.refl _ _) (.refl _ _) .nil)) (.swap _ _ _)
    (.inl (keysDistinct_pair (by decide) _ _))

/-- The model of the document. -/
def model : Model :=
  { memoryMaps :=
      [{ name := "soc", blocks := [{ name := "unit", baseOffset := 4096, size := 4096 }] }] }

/-- The document resolves to its model in either spelling, and to nothing without the name. -/
theorem ofSections_respelled_block :
    Model.ofSections {} [document block] = .ok model ∧
      Model.ofSections {} [document respelled] = .ok model ∧
        ∃ e, Model.ofSections {} [document nameless.2] = .error e := by
  have hresolved : Model.ofSections {} [document block] = .ok model :=
    eq_ok_of_toOption (by decide +kernel)
  obtain ⟨m, hm, rfl, -⟩ := (Model.ofSections_respelled {} [document block] [document respelled]).1
    (.cons (document_respells block_respells) .nil) model hresolved
  have hfails : (Model.ofSections {} [document nameless.1]).toOption = none := by decide +kernel
  cases he : Model.ofSections {} [document nameless.1] with
  | ok m =>
      rw [he] at hfails
      nomatch hfails
  | error e =>
      exact ⟨hresolved, hm, (Model.ofSections_respelled {} _ _).2
        (.cons (document_respells nameless_respells) .nil) e he⟩

end HexOffset

end RegisterMap
