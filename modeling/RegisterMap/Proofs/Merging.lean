import RegisterMap.Proofs.Presentation

/-!
# Sections Split One Document

A document in the legacy shape may come in sections. What the sections contribute is put together
whatever section it comes from, so the sections might as well be one: with all maps, all templates,
and all clocks, resets and interfaces, each in the order of the sections. Templates are only looked
up when all sections have been read, so it does not matter where sections stand that have nothing
else.

## Main results

* `readSection_merged` — the merged section contributes what the sections do.
* `Model.ofSections_merged` — the model of the merged section, and of the sections with templates at
  other places.
-/

namespace RegisterMap

open Yaml (Value)

section Merging

variable {options : Options}

/-! ### Sections as values -/

namespace Yaml.Value

/-- The value at a key, unless it is null. -/
def at? (v : Value) (key : String) : Option Value :=
  match v.get? key with
  | none | some .null => none
  | some value => some value

/-- What a section lists at a key. -/
def itemsAt (key : String) (v : Value) : List Value :=
  match v.at? key with
  | some (.seq items) => items
  | _ => []

/-- The maps of a section; a single map stands for the sequence that holds only it. -/
def mapItems (v : Value) : List Value :=
  match v.at? "memoryMap" with
  | some (.seq items) => items
  | some single => [single]
  | none => []

/-- The template table of a section. -/
def templateEntries (v : Value) : List (Value × Value) :=
  match v.at? "registerTemplates" with
  | some (.map entries) => entries
  | _ => []

/-- The section carries nothing but templates. -/
def hasOnlyTemplates (v : Value) : Bool :=
  ["memoryMap", "clocks", "resets", "busInterfaces"].all fun key => (v.at? key).isNone

end Yaml.Value

/-- **All sections in one.** -/
def mergedSection (sections : List Value) : Value :=
  .map
    [(.str "memoryMap", .seq (sections.flatMap Value.mapItems)),
      (.str "registerTemplates", .map (sections.flatMap Value.templateEntries)),
      (.str "clocks", .seq (sections.flatMap (Value.itemsAt "clocks"))),
      (.str "resets", .seq (sections.flatMap (Value.itemsAt "resets"))),
      (.str "busInterfaces", .seq (sections.flatMap (Value.itemsAt "busInterfaces")))]

/-! ### What sections list -/

/-- A child is the value at its key, null left out, **at the path of the key**. -/
theorem Located.child?_eq (n : Located) (key : String) :
    n.child? key = (n.value.at? key).map fun value => ⟨value, s!"{n.path}.{key}"⟩ := by
  rw [Located.child?, Value.at?]
  cases n.value.get? key with
  | none => rfl
  | some v => cases v <;> rfl

/-- Where a key leads to a value, there is a child with it. -/
theorem Located.exists_child {n : Located} {key : String} {v : Value}
    (h : n.value.at? key = some v) : ∃ c, n.child? key = some c ∧ c.value = v := by
  rw [Located.child?_eq, h]
  exact ⟨_, rfl, rfl⟩

/-- What is listed under a key are the items there. -/
theorem Located.optSeq_values {n : Located} {key : String} {ns : List Located}
    (h : n.optSeq key = .ok ns) : ns.map (·.value) = n.value.itemsAt key := by
  rw [Located.optSeq, Located.child?_eq] at h
  rw [Value.itemsAt]
  cases hv : n.value.at? key with
  | none =>
      rw [hv] at h
      obtain rfl := Except.ok.inj h
      rfl
  | some v =>
      rw [hv] at h
      obtain rfl := Located.asSeq_values h
      rfl

/-- The maps that a section lists are the items under its keys. -/
theorem Located.sectionMaps_values {n : Located} {ns : List Located}
    (h : n.sectionMaps = .ok ns) : ns.map (·.value) = n.value.mapItems := by
  rw [Located.sectionMaps, Located.child?_eq] at h
  rw [Value.mapItems]
  cases hv : n.value.at? "memoryMap" with
  | none =>
      rw [hv] at h
      obtain rfl := Except.ok.inj h
      rfl
  | some v =>
      rw [hv] at h
      simp only [Option.map_some, Located.asSeqOrOne] at h
      split at h
      · next hmap =>
          obtain rfl := Except.ok.inj h
          cases v with
          | seq items => exact absurd hmap Bool.false_ne_true
          | _ => rfl
      · obtain rfl := Located.asSeq_values h
        rfl

/-- An entry of a template table, without the path of its body. -/
def unlocated (entry : String × Located) : Option String × Value := (some entry.1, entry.2.value)

/-- An entry of a mapping as one of a template table. -/
def named (entry : Value × Value) : Option String × Value := (entry.1.asStr?, entry.2)

/-- The template table of a section, by the names of the templates. -/
def Yaml.Value.namedTemplates (v : Value) : List (Option String × Value) :=
  v.templateEntries.map named

/-- The entries of a mapping are read **in their order**, with their keys as text. -/
theorem Located.entries_values {n : Located} {es : List (String × Located)}
    (h : n.entries = .ok es) :
    ∃ entries, n.value = .map entries ∧ es.map unlocated = entries.map named := by
  rw [Located.entries] at h
  split at h
  · next entries hvalue =>
      refine ⟨entries, hvalue, (map_eq_map_iff_forall₂.mpr ?_).symm⟩
      refine (mapM_eq_ok_iff.mp h).imp fun e b hb => ?_
      dsimp only at hb
      split at hb
      · next key hkey =>
          obtain rfl := Except.ok.inj hb
          exact congrArg (·, e.2) hkey
      · exact absurd hb failAt_ne_ok
  · exact absurd h failAt_ne_ok

/-- They are read if all keys are text. -/
theorem Located.exists_entries {n : Located} {entries : List (Value × Value)}
    (hvalue : n.value = .map entries) (h : ∀ e ∈ entries, ∃ key, e.1.asStr? = some key) :
    ∃ es, n.entries = .ok es := by
  rw [Located.entries, hvalue]
  refine exists_mapM_eq_ok fun e he => ?_
  obtain ⟨key, hkey⟩ := h e he
  simp only [hkey]
  exact ⟨_, rfl⟩

/-- The table of templates holds those that a section names. -/
theorem Located.templateTable_values {n : Located} {es : List (String × Located)}
    (h : n.templateTable = .ok es) :
    es.map unlocated = n.value.namedTemplates := by
  rw [Located.templateTable, Located.child?_eq] at h
  rw [Value.namedTemplates, Value.templateEntries]
  cases hv : n.value.at? "registerTemplates" with
  | none =>
      rw [hv] at h
      obtain rfl := Except.ok.inj h
      rfl
  | some v =>
      rw [hv] at h
      obtain ⟨entries, hentries, heq⟩ := Located.entries_values h
      obtain rfl : v = .map entries := hentries
      exact heq

/-! ### What the merged section lists -/

/-- The merged section lists under a key **what the sections list there**, in their order. -/
theorem mergedSection_optSeq {key : String} (hkey : key ∈ sharedKeys) (sections : List Value)
    (path : String) :
    ∃ ns, (⟨mergedSection sections, path⟩ : Located).optSeq key = .ok ns ∧
      ns.map (·.value) = sections.flatMap (Value.itemsAt key) := by
  have hget : (mergedSection sections).at? key =
      some (.seq (sections.flatMap (Value.itemsAt key))) := by
    simp only [sharedKeys, List.mem_cons, List.not_mem_nil, or_false] at hkey
    rcases hkey with rfl | rfl | rfl <;> rfl
  rw [Located.optSeq, Located.child?_eq, hget]
  exact ⟨_, rfl, Located.mapIdx_values _ _⟩

/-- It lists the maps of all sections. -/
theorem mergedSection_sectionMaps (sections : List Value) (path : String) :
    ∃ ns, (⟨mergedSection sections, path⟩ : Located).sectionMaps = .ok ns ∧
      ns.map (·.value) = sections.flatMap Value.mapItems := by
  have hget : (mergedSection sections).at? "memoryMap" =
      some (.seq (sections.flatMap Value.mapItems)) := rfl
  rw [Located.sectionMaps, Located.child?_eq, hget]
  exact ⟨_, rfl, Located.mapIdx_values _ _⟩

/-- Its table of templates holds **those of all sections** if their keys are text. -/
theorem mergedSection_templateTable {sections : List Value}
    (h : ∀ e ∈ sections.flatMap Value.templateEntries, ∃ key, e.1.asStr? = some key)
    (path : String) :
    ∃ es, (⟨mergedSection sections, path⟩ : Located).templateTable = .ok es ∧
      es.map unlocated = sections.flatMap Value.namedTemplates := by
  have hget : (mergedSection sections).at? "registerTemplates" =
      some (.map (sections.flatMap Value.templateEntries)) := rfl
  obtain ⟨c, hc, hvalue⟩ := Located.exists_child (n := ⟨mergedSection sections, path⟩) hget
  obtain ⟨es, hes⟩ := Located.exists_entries hvalue h
  obtain ⟨entries, hentries, heq⟩ := Located.entries_values hes
  obtain rfl := Value.map.inj (hvalue.symm.trans hentries)
  rw [Located.templateTable, hc]
  exact ⟨es, hes, heq.trans List.map_flatMap⟩

/-! ### Putting sections together -/

/-- What is read **section by section** can be read in one go. -/
theorem exists_joined {ι κ β : Type} {list : Located → Checked (List ι)} {key : ι → κ}
    {values : Value → List κ} (hvalues : ∀ n ns, list n = .ok ns → ns.map key = values n.value)
    {read : ι → Checked β} {part : DraftParts → List β} {roots : List Located}
    {ps : List DraftParts}
    (h : List.Forall₂ (fun n p => ∃ ns, list n = .ok ns ∧ ns.mapM read = .ok (part p)) roots ps) :
    ∃ ns : List ι, ns.map key = (roots.map (·.value)).flatMap values ∧
      ns.mapM read = .ok (ps.flatMap part) := by
  induction h with
  | nil => exact ⟨[], rfl, rfl⟩
  | cons hp _ ih =>
      obtain ⟨ns, hns, hread⟩ := hp
      obtain ⟨rest, hrest, hreadRest⟩ := ih
      refine ⟨ns ++ rest, ?_, mapM_eq_ok_iff.mpr ?_⟩
      · rw [List.map_append, hvalues _ _ hns, hrest, List.map_cons, List.flatMap_cons]
      · exact List.rel_append (mapM_eq_ok_iff.mp hread) (mapM_eq_ok_iff.mp hreadRest)

/-- What is read section by section is read **from other lists of the same**. -/
theorem exists_merged {ι κ β : Type} {list : Located → Checked (List ι)} {key : ι → κ}
    {values : Value → List κ} (hvalues : ∀ n ns, list n = .ok ns → ns.map key = values n.value)
    {read : ι → Checked β} {part : DraftParts → List β} {roots : List Located}
    {ps : List DraftParts}
    (h : List.Forall₂ (fun n p => ∃ ns, list n = .ok ns ∧ ns.mapM read = .ok (part p)) roots ps)
    {R : β → β → Prop} (hread : ∀ a b, key a = key b → Refines R (read a) (read b))
    {all : List ι} (hall : all.map key = (roots.map (·.value)).flatMap values) :
    ∃ bs, all.mapM read = .ok bs ∧ List.Forall₂ R (ps.flatMap part) bs := by
  obtain ⟨ns, hns, hreadNs⟩ := exists_joined hvalues h
  exact Refines.mapM (map_eq_map_iff_forall₂.mp (hns.trans hall.symm)) hread _ hreadNs

/-- What the sections list at a shared key, the merged section lists. -/
theorem mergedSection_shared {β : Type} {key : String} (hkey : key ∈ sharedKeys)
    {read : Located → Checked β} {part : DraftParts → List β} {roots : List Located}
    {ps : List DraftParts}
    (h : List.Forall₂ (fun n p => ∃ ns, n.optSeq key = .ok ns ∧ ns.mapM read = .ok (part p))
      roots ps)
    (hread : ∀ a b, a.value = b.value → Refines Eq (read a) (read b)) (path : String) :
    ∃ ns, (⟨mergedSection (roots.map (·.value)), path⟩ : Located).optSeq key = .ok ns ∧
      ns.mapM read = .ok (ps.flatMap part) := by
  obtain ⟨ns, hns, hvalues⟩ := mergedSection_optSeq hkey (roots.map (·.value)) path
  obtain ⟨bs, hbs, heq⟩ := exists_merged (fun _ _ => Located.optSeq_values) h hread hvalues
  rw [List.forall₂_eq_eq_eq] at heq
  exact ⟨ns, hns, heq ▸ hbs⟩

/-- The merged section **contributes what the sections do**. -/
theorem readSection_merged {roots : List Located} {ps : List DraftParts}
    (h : List.Forall₂ (fun n p => readSection options n = .ok p) roots ps) (path : String) :
    ∃ p, readSection options ⟨mergedSection (roots.map (·.value)), path⟩ = .ok p ∧
      (DraftParts.join ps).Like p := by
  have hparts := h.imp fun _ _ h => readParts_eq_ok_iff.mp h
  have hsame {a b : Located} (h : a.value = b.value) : a.Respells false b := .of_value_eq h
  obtain ⟨clocks, hclocks⟩ := mergedSection_shared (by decide) (hparts.imp fun _ _ h => h.2.2.1)
    (fun _ _ h => readClock_respelled (hsame h)) path
  obtain ⟨resets, hresets⟩ := mergedSection_shared (by decide) (hparts.imp fun _ _ h => h.2.2.2.1)
    (fun _ _ h => readReset_respelled (hsame h)) path
  obtain ⟨interfaces, hinterfaces⟩ := mergedSection_shared (by decide)
    (hparts.imp fun _ _ h => h.2.2.2.2) (fun _ _ h => readInterface_respelled (hsame h)) path
  obtain ⟨ms, hms, hmaps⟩ := mergedSection_sectionMaps (roots.map (·.value)) path
  obtain ⟨maps, hreadMaps, hlikeMaps⟩ := exists_merged (fun _ _ => Located.sectionMaps_values)
    (hparts.imp fun _ _ h => h.2.1) (fun _ _ h => readMap_respelled (hsame h)) hmaps
  have htables := hparts.imp fun _ _ h => h.1
  obtain ⟨joined, hjoined, -⟩ := exists_joined (fun _ _ => Located.templateTable_values) htables
  have hkeys : ∀ e ∈ (roots.map (·.value)).flatMap Value.templateEntries,
      ∃ key, e.1.asStr? = some key := by
    intro e he
    have hnamed : named e ∈ joined.map unlocated := by
      rw [hjoined]
      exact List.map_flatMap ▸ List.mem_map_of_mem he
    obtain ⟨entry, -, hentry⟩ := List.mem_map.mp hnamed
    exact ⟨entry.1, (congrArg Prod.fst hentry).symm⟩
  obtain ⟨ts, hts, htable⟩ := mergedSection_templateTable hkeys path
  obtain ⟨templates, htemplates, hlikeTemplates⟩ := exists_merged
    (fun _ _ => Located.templateTable_values) htables (fun _ _ h => readTemplate_respelled
      ⟨Option.some.inj (congrArg Prod.fst h), hsame (congrArg Prod.snd h)⟩) htable
  refine ⟨⟨templates, maps, _, _, _⟩, readParts_eq_ok_iff.mpr ⟨⟨ts, hts, htemplates⟩,
    ⟨ms, hms, hreadMaps⟩, ⟨clocks, hclocks⟩, ⟨resets, hresets⟩, interfaces, hinterfaces⟩, ?_⟩
  exact ⟨⟨templates, hlikeTemplates, .refl _⟩, hlikeMaps, rfl, rfl, rfl⟩

/-! ### Sections at other places -/

/-- The value can be **one of several sections**. -/
def IsSection (v : Value) : Prop :=
  v.isMap = true ∧ Shape.hasAny ["memoryMaps"] v = false ∧
    Shape.hasAny Shape.sectionKeys v = true

/-- The check lets through **what can be one of several sections**, and nothing else. -/
theorem checkSection_eq_ok_iff (i : Nat) (v : Value) :
    Shape.checkSection i v = .ok () ↔ IsSection v := by
  rw [Shape.checkSection, IsSection]
  cases v.isMap <;> cases Shape.hasAny ["memoryMaps"] v <;>
    cases Shape.hasAny Shape.sectionKeys v <;> simp [failAt]

/-- Sections pass the check exactly if each can be one of several. -/
theorem checkSections_eq_ok_iff (i : Nat) (sections : List Value) :
    Shape.checkSections i sections = .ok () ↔ ∀ v ∈ sections, IsSection v := by
  induction sections generalizing i with
  | nil => simp [Shape.checkSections]
  | cons v sections ih =>
      rw [Shape.checkSections, List.forall_mem_cons, ← checkSection_eq_ok_iff i, ← ih (i + 1),
        bind_eq_ok_iff]
      constructor
      · rintro ⟨_, h⟩
        exact h
      · exact fun h => ⟨(), h⟩

/-- The legacy shape does not depend on **where the sections stand**. -/
theorem detect_perm {sections sections' : List Value} (hperm : sections.Perm sections')
    (h : Shape.detect sections = .ok .legacy) : Shape.detect sections' = .ok .legacy := by
  match sections, sections' with
  | [], _ => nomatch h
  | [v], _ =>
      rw [List.singleton_perm] at hperm
      exact hperm ▸ h
  | v :: w :: rest, [] => nomatch hperm.length_eq
  | v :: w :: rest, [_] => nomatch hperm.length_eq
  | v :: w :: rest, v' :: w' :: rest' =>
      rw [Shape.detect_several] at h ⊢
      obtain ⟨_, hcheck, hany⟩ := bind_eq_ok_iff.mp h
      have hsections := (checkSections_eq_ok_iff 0 _).mp hcheck
      have hsections' := (checkSections_eq_ok_iff 0 _).mpr fun v hv =>
        hsections v (hperm.mem_iff.mpr hv)
      rw [← hperm.any_eq]
      exact bind_eq_ok_iff.mpr ⟨(), hsections', hany⟩

/-- A section that carries nothing but templates **contributes nothing else**. -/
theorem readSection_hasOnlyTemplates {v : Value} {path : String} {p : DraftParts}
    (honly : v.hasOnlyTemplates = true) (h : readSection options ⟨v, path⟩ = .ok p) :
    p.maps = [] ∧ p.clocks = [] ∧ p.resets = [] ∧ p.interfaces = [] := by
  simp only [Value.hasOnlyTemplates, List.all_cons, List.all_nil, Bool.and_true, Bool.and_eq_true,
    Option.isNone_iff_eq_none] at honly
  obtain ⟨hmap, hclock, hreset, hinterface⟩ := honly
  obtain ⟨-, ⟨ms, hms, hmaps⟩, ⟨cs, hcs, hclocks⟩, ⟨rs, hrs, hresets⟩, is, his, hinterfaces⟩ :=
    readParts_eq_ok_iff.mp h
  have hnil {β : Type} {read : Located → Checked β} {ns : List Located} {bs : List β}
      (hvalues : ns.map (·.value) = []) (hread : ns.mapM read = .ok bs) : bs = [] := by
    obtain rfl := List.map_eq_nil_iff.mp hvalues
    exact (Except.ok.inj hread).symm
  have hitems {key : String} {ns : List Located} (hkey : v.at? key = none)
      (hns : (⟨v, path⟩ : Located).optSeq key = .ok ns) : ns.map (·.value) = [] := by
    rw [Located.optSeq_values hns, Value.itemsAt, hkey]
  refine ⟨hnil ?_ hmaps, hnil (hitems hclock hcs) hclocks, hnil (hitems hreset hrs) hresets,
    hnil (hitems hinterface his) hinterfaces⟩
  rw [Located.sectionMaps_values hms, Value.mapItems, hmap]

/-- Sections that contribute nothing to a part can be **left out** of it. -/
theorem exists_kept {f : Value → Checked DraftParts} {drop : Value → Bool} {β : Type}
    {part : DraftParts → List β}
    (hnone : ∀ v p, drop v = true → f v = .ok p → part p = []) {sections : List Value}
    {ps : List DraftParts} (h : sections.mapM f = .ok ps) :
    ∃ qs, (sections.filter (!drop ·)).mapM f = .ok qs ∧ ps.flatMap part = qs.flatMap part := by
  rw [mapM_eq_ok_iff] at h
  induction h with
  | nil => exact ⟨[], rfl, rfl⟩
  | @cons v p _ _ hp _ ih =>
      obtain ⟨qs, hqs, hpart⟩ := ih
      rw [List.filter_cons]
      cases hdrop : drop v with
      | true =>
          refine ⟨qs, hqs, ?_⟩
          rw [List.flatMap_cons, hnone v p hdrop hp, hpart, List.nil_append]
      | false =>
          refine ⟨p :: qs, mapM_eq_ok_iff.mpr (.cons hp (mapM_eq_ok_iff.mp hqs)), ?_⟩
          rw [List.flatMap_cons, List.flatMap_cons, hpart]

/-- A section, read as if it had no place in a document. -/
def readUnplaced (options : Options) (v : Value) : Checked DraftParts :=
  readSection options ⟨v, ""⟩

/-- Sections contribute the same **with their templates in other places**. -/
theorem join_moved {sections sections' : List Value} {ps ps' : List DraftParts}
    (hkept : sections'.filter (!·.hasOnlyTemplates) = sections.filter (!·.hasOnlyTemplates))
    (hps : sections.mapM (readUnplaced options) = .ok ps)
    (hps' : sections'.mapM (readUnplaced options) = .ok ps') (hperm : ps.Perm ps') :
    (DraftParts.join ps).Like (DraftParts.join ps') := by
  have hsame {β : Type} {part : DraftParts → List β}
      (hnone : ∀ v p, v.hasOnlyTemplates = true → readUnplaced options v = .ok p → part p = []) :
      ps'.flatMap part = ps.flatMap part := by
    obtain ⟨qs, hqs, hpart⟩ := exists_kept hnone hps
    obtain ⟨qs', hqs', hpart'⟩ := exists_kept hnone hps'
    rw [hkept, hqs] at hqs'
    obtain rfl := Except.ok.inj hqs'
    exact hpart'.trans hpart.symm
  have hmaps := hsame fun v p honly hp => (readSection_hasOnlyTemplates honly hp).1
  refine ⟨⟨_, List.forall₂_same.mpr fun t _ => .refl t, hperm.flatMap_right _⟩, ?_,
    hsame fun v p honly hp => (readSection_hasOnlyTemplates honly hp).2.1,
    hsame fun v p honly hp => (readSection_hasOnlyTemplates honly hp).2.2.1,
    hsame fun v p honly hp => (readSection_hasOnlyTemplates honly hp).2.2.2⟩
  exact (show (DraftParts.join ps').maps = _ from hmaps) ▸ List.forall₂_same.mpr fun m _ => .refl m

/-! ### Documents in sections -/

/-- Placing sections at their paths leaves them as they are. -/
theorem sectionsOf_values (sections : List Value) :
    (Draft.sectionsOf sections).map (·.value) = sections :=
  Located.mapIdx_values sections _

/-- What a section contributes does not depend on **its place**. -/
theorem readSection_of_value_eq {n n' : Located} (h : n.value = n'.value) :
    Refines DraftParts.Like (readSection options n) (readSection options n') :=
  readSection_respelled (show n.Respells false n' from .of_value_eq h)

/-- What sections contribute does not depend on **where they stand**. -/
theorem unplaced_of_placed {sections : List Value} {ps : List DraftParts}
    (h : (Draft.sectionsOf sections).mapM (readSection options) = .ok ps) :
    ∃ qs, sections.mapM (readUnplaced options) = .ok qs ∧ List.Forall₂ DraftParts.Like ps qs := by
  have hvalues : (Draft.sectionsOf sections).map (·.value) = sections.map id := by
    rw [sectionsOf_values, List.map_id]
  exact Refines.mapM (map_eq_map_iff_forall₂.mp hvalues)
    (fun n v hv => readSection_of_value_eq (show n.value = (⟨v, ""⟩ : Located).value from hv)) ps h

/-- What a section contributes without a place, it contributes **in its place**. -/
theorem placed_of_unplaced {sections : List Value} {qs : List DraftParts}
    (h : sections.mapM (readUnplaced options) = .ok qs) :
    ∃ ps, (Draft.sectionsOf sections).mapM (readSection options) = .ok ps ∧
      List.Forall₂ DraftParts.Like qs ps := by
  have hvalues : sections.map id = (Draft.sectionsOf sections).map (·.value) := by
    rw [sectionsOf_values, List.map_id]
  exact Refines.mapM (map_eq_map_iff_forall₂.mp hvalues)
    (fun v n hv => readSection_of_value_eq (show (⟨v, ""⟩ : Located).value = n.value from hv)) qs h

/-- The merged section makes **the same draft**, up to paths. -/
theorem ofLegacy_merged (sections : List Value) :
    Refines Draft.Like (Draft.ofLegacy options sections)
      (Draft.ofLegacy options [mergedSection sections]) := by
  intro d hd
  obtain ⟨ps, hps, hnamed, rfl⟩ := Draft.ofLegacy_eq_ok_iff.mp hd
  obtain ⟨p, hp, hlike⟩ := readSection_merged (mapM_eq_ok_iff.mp hps) (Shape.sectionPath 0)
  rw [sectionsOf_values] at hp
  obtain ⟨hnamed', hlike⟩ := hlike.ofParts .legacy .legacy hnamed
  exact ⟨_, Draft.ofLegacy_single_eq_ok_iff.mpr ⟨p, hp, hnamed', rfl⟩, hlike⟩

/-- Sections **with their templates in other places** resolve to the same. -/
theorem ofLegacy_moved {sections sections' : List Value} (hperm : sections.Perm sections')
    (hkept : sections'.filter (!·.hasOnlyTemplates) = sections.filter (!·.hasOnlyTemplates)) :
    Refines Eq (do (← Draft.ofLegacy options sections).resolve options)
      (do (← Draft.ofLegacy options sections').resolve options) := by
  intro m hm
  obtain ⟨d, hd, hm⟩ := bind_eq_ok_iff.mp hm
  obtain ⟨ps, hps, hnamed, rfl⟩ := Draft.ofLegacy_eq_ok_iff.mp hd
  -- Without places, the sections contribute the same in another order.
  obtain ⟨qs, hqs, hlike⟩ := unplaced_of_placed hps
  obtain ⟨qs', hqs', hpermQs⟩ := List.perm_comp_forall₂ hperm.symm (mapM_eq_ok_iff.mp hqs)
  rw [← mapM_eq_ok_iff] at hqs'
  obtain ⟨ps', hps', hlike'⟩ := placed_of_unplaced hqs'
  obtain ⟨hnamed, hlike⟩ := (DraftParts.Like.join hlike).ofParts .legacy .legacy hnamed
  obtain ⟨hnamed, hmoved⟩ := (join_moved hkept hqs hqs' hpermQs.symm).ofParts .legacy .legacy hnamed
  obtain ⟨hnamed, hlike'⟩ := (DraftParts.Like.join hlike').ofParts .legacy .legacy hnamed
  obtain ⟨_, hm, rfl⟩ := hlike.resolve m hm
  obtain ⟨_, hm, rfl⟩ := hmoved.resolve _ hm
  obtain ⟨_, hm, rfl⟩ := hlike'.resolve _ hm
  have hd' := Draft.ofLegacy_eq_ok_iff.mpr ⟨ps', hps', hnamed, rfl⟩
  exact ⟨_, bind_eq_ok_iff.mpr ⟨_, hd', hm⟩, rfl⟩

/-- **Sections split one document.** The merged section resolves to the model of the sections, and
so do the sections with those that carry nothing but templates at other places. -/
theorem Model.ofSections_merged (options : Options) {sections : List Value} {m : Model}
    (hshape : Shape.detect sections = .ok .legacy) (h : ofSections options sections = .ok m) :
    ofSections options [mergedSection sections] = .ok m ∧
      ∀ sections', sections.Perm sections' →
        sections'.filter (!·.hasOnlyTemplates) = sections.filter (!·.hasOnlyTemplates) →
          ofSections options sections' = .ok m := by
  rw [ofSections_of_legacy hshape] at h
  constructor
  · obtain ⟨_, hm, rfl⟩ := (ofLegacy_merged sections).resolve options m h
    rw [ofSections_of_legacy rfl]
    exact hm
  · intro sections' hperm hkept
    rw [ofSections_of_legacy (detect_perm hperm hshape)]
    obtain ⟨_, hm, rfl⟩ := ofLegacy_moved hperm hkept m h
    exact hm

end Merging

/-! ### A template behind the array that uses it -/

namespace LateTemplate

/-- A section with a single map, whose block repeats a template. -/
def maps : Value :=
  .map [(.str "memoryMap", .map [(.str "name", .str "soc"), (.str "addressBlocks",
    .seq [.map [(.str "name", .str "unit"), (.str "offset", .int 0), (.str "registers",
      .seq [.map [(.str "generateArray", .map [(.str "name", .str "ch"),
        (.str "template", .str "channel"), (.str "count", .int 2)])]])]])])]

/-- A section with the template. -/
def templates : Value :=
  .map [(.str "registerTemplates", .map
    [(.str "channel", .seq [.map [(.str "name", .str "ctrl")]])])]

/-- The array of two channels. -/
def channels : RegisterArray :=
  { name := "ch", offset := 0, descriptor := { count := 2, stride := 4 },
    registers := [{ name := "ctrl", offset := 0, width := 32, access := .readWrite }] }

/-- The block with the array. -/
def block : AddressBlock :=
  { name := "unit", baseOffset := 0, size := 64,
    registers := channels.expand, arrays := [channels] }

/-- The model of the sections. -/
def model : Model := { memoryMaps := [{ name := "soc", blocks := [block] }] }

/-- The template is found **in a later section**, in an earlier one, and in the merged section. -/
theorem ofSections_merged_late :
    Model.ofSections {} [maps, templates] = .ok model ∧
      Model.ofSections {} [mergedSection [maps, templates]] = .ok model ∧
        Model.ofSections {} [templates, maps] = .ok model := by
  have hresolved : Model.ofSections {} [maps, templates] = .ok model :=
    eq_ok_of_toOption (by decide +kernel)
  obtain ⟨hmerged, hmoved⟩ := Model.ofSections_merged {} rfl hresolved
  exact ⟨hresolved, hmerged, hmoved _ (.swap _ _ _) rfl⟩

end LateTemplate

end RegisterMap
