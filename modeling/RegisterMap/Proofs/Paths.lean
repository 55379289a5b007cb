import Mathlib.Data.List.Nodup
import RegisterMap.Engine.Handle
import RegisterMap.Proofs.Validity

/-!
# Paths Lead Back

A path is written from names and read by splitting: at the last point, where the name of a register
or an array starts, and at the first one, where the name of the map ends. A lookup then takes the
first item of each name. The path of a block, a register or an array therefore leads back to it if
names are unique among siblings, the map's name has no point and neither has the last name. The name
of a block may have points in it.

## Main results

* `Text.splitFirst_eq_some_iff`, `Text.splitLast_eq_some_iff` — a text is split at the first, or at
  the last, of its separators.
* `Text.splitFirst_path`, `Text.splitLast_path` — a path of two names is split between them.
* `Model.Named.of_violations` — names are unique where no violation says otherwise.
* `Model.Named.findBlock?_path`, `Model.Named.findRegister?_path`, `Model.Named.findArray?_path` —
  lookups by path.
-/

namespace RegisterMap

/-! ### Splitting -/

namespace Text

/-- A text is split at **the first** separator. -/
theorem splitFirstChars_append {sep : Char} {before after : List Char} (h : sep ∉ before) :
    splitFirstChars sep (before ++ sep :: after) = some (before, after) := by
  induction before with
  | nil => simp [splitFirstChars]
  | cons c before ih =>
      obtain ⟨hc, hbefore⟩ := List.ne_and_not_mem_of_not_mem_cons h
      rw [List.cons_append, splitFirstChars, if_neg hc.symm, ih hbefore]
      rfl

/-- A text that is split is its parts, with the **first** separator between them. -/
theorem splitFirstChars_eq_some_iff {sep : Char} {cs before after : List Char} :
    splitFirstChars sep cs = some (before, after) ↔
      cs = before ++ sep :: after ∧ sep ∉ before := by
  constructor
  · intro h
    induction cs generalizing before with
    | nil => nomatch h
    | cons c cs ih =>
        rw [splitFirstChars] at h
        split at h
        · next hc =>
          obtain ⟨rfl, rfl⟩ := Prod.mk.inj (Option.some.inj h)
          exact ⟨by rw [hc, List.nil_append], List.not_mem_nil⟩
        · next hc =>
          obtain ⟨⟨front, back⟩, hsplit, heq⟩ := Option.map_eq_some_iff.mp h
          obtain ⟨rfl, rfl⟩ := Prod.mk.inj heq
          obtain ⟨hcs, hfront⟩ := ih hsplit
          exact ⟨by rw [hcs, List.cons_append],
            List.not_mem_cons_of_ne_of_not_mem (Ne.symm hc) hfront⟩
  · rintro ⟨rfl, h⟩
    exact splitFirstChars_append h

/-- A text is not split exactly when it has no separator. -/
theorem splitFirstChars_eq_none_iff {sep : Char} {cs : List Char} :
    splitFirstChars sep cs = none ↔ sep ∉ cs := by
  constructor
  · intro h hmem
    obtain ⟨before, after, rfl, hbefore⟩ := List.eq_append_cons_of_mem hmem
    rw [splitFirstChars_append hbefore] at h
    nomatch h
  · intro h
    cases hsplit : splitFirstChars sep cs with
    | none => rfl
    | some parts =>
        obtain ⟨rfl, -⟩ := splitFirstChars_eq_some_iff.mp hsplit
        exact absurd (List.mem_append_right _ List.mem_cons_self) h

/-- A text is split at **the last** separator. -/
theorem splitLastChars_append {sep : Char} {before after : List Char} (h : sep ∉ after) :
    splitLastChars sep (before ++ sep :: after) = some (before, after) := by
  have hreverse : (before ++ sep :: after).reverse = after.reverse ++ sep :: before.reverse := by
    simp
  rw [splitLastChars, hreverse, splitFirstChars_append (by simpa using h)]
  simp

/-- A text that is split last is its parts, with the **last** separator between them. -/
theorem splitLastChars_eq_some_iff {sep : Char} {cs before after : List Char} :
    splitLastChars sep cs = some (before, after) ↔ cs = before ++ sep :: after ∧ sep ∉ after := by
  constructor
  · intro h
    obtain ⟨⟨back, front⟩, hsplit, heq⟩ := Option.map_eq_some_iff.mp h
    obtain ⟨rfl, rfl⟩ := Prod.mk.inj heq
    obtain ⟨hcs, hback⟩ := splitFirstChars_eq_some_iff.mp hsplit
    have hcs : cs = (back ++ sep :: front).reverse := by rw [← hcs, List.reverse_reverse]
    exact ⟨by simp [hcs], by rwa [List.mem_reverse]⟩
  · rintro ⟨rfl, h⟩
    exact splitLastChars_append h

/-- The characters of a path of two names. -/
theorem toList_path (a b : String) : s!"{a}.{b}".toList = a.toList ++ '.' :: b.toList := by
  simp [toString]

/-- A path is split **first** behind a name without points. -/
theorem splitFirst_path {a : String} (h : '.' ∉ a.toList) (b : String) :
    splitFirst '.' s!"{a}.{b}" = some (a, b) := by
  rw [splitFirst, toList_path, splitFirstChars_append h]
  simp

/-- A path is split **last** before a name without points. -/
theorem splitLast_path (a : String) {b : String} (h : '.' ∉ b.toList) :
    splitLast '.' s!"{a}.{b}" = some (a, b) := by
  rw [splitLast, toList_path, splitLastChars_append h]
  simp

/-- Where a text is split **first**, and into which names. -/
theorem splitFirst_eq_some_iff {s a b : String} :
    splitFirst '.' s = some (a, b) ↔ s = s!"{a}.{b}" ∧ '.' ∉ a.toList := by
  constructor
  · intro h
    obtain ⟨⟨before, after⟩, hsplit, heq⟩ := Option.map_eq_some_iff.mp h
    obtain ⟨rfl, rfl⟩ := Prod.mk.inj heq
    rw [← String.toList_inj, toList_path, String.toList_ofList, String.toList_ofList]
    exact splitFirstChars_eq_some_iff.mp hsplit
  · rintro ⟨rfl, h⟩
    exact splitFirst_path h b

/-- A text without points is not split. -/
theorem splitFirst_eq_none_iff {s : String} : splitFirst '.' s = none ↔ '.' ∉ s.toList := by
  rw [splitFirst, Option.map_eq_none_iff, splitFirstChars_eq_none_iff]

/-- Where a text is split **last**, and into which names. -/
theorem splitLast_eq_some_iff {s a b : String} :
    splitLast '.' s = some (a, b) ↔ s = s!"{a}.{b}" ∧ '.' ∉ b.toList := by
  constructor
  · intro h
    obtain ⟨⟨before, after⟩, hsplit, heq⟩ := Option.map_eq_some_iff.mp h
    obtain ⟨rfl, rfl⟩ := Prod.mk.inj heq
    rw [← String.toList_inj, toList_path, String.toList_ofList, String.toList_ofList]
    exact splitLastChars_eq_some_iff.mp hsplit
  · rintro ⟨rfl, h⟩
    exact splitLast_path a h

end Text

/-! ### Unique names -/

/-- Where keys are different, the first item of a key is the only one. -/
theorem find?_key_iff {α : Type} {key : α → String} {items : List α} (h : (items.map key).Nodup)
    {name : String} {a : α} :
    items.find? (key · == name) = some a ↔ a ∈ items ∧ key a = name := by
  constructor
  · intro hfind
    exact ⟨List.mem_of_find?_eq_some hfind, by simpa using List.find?_some hfind⟩
  · rintro ⟨ha, rfl⟩
    cases hfind : items.find? (key · == key a) with
    | none => simpa using List.find?_eq_none.mp hfind a ha
    | some b =>
        have hkey : key b = key a := by simpa using List.find?_some hfind
        rw [List.inj_on_of_nodup_map h (List.mem_of_find?_eq_some hfind) ha hkey]

/-- Maps, blocks of one map and registers of one block have **different names**. -/
structure Model.Named (m : Model) : Prop where
  maps_named : (m.memoryMaps.map (·.name)).Nodup
  blocks_named : ∀ map ∈ m.memoryMaps, (map.blocks.map (·.name)).Nodup
  registers_named : ∀ map ∈ m.memoryMaps, ∀ b ∈ map.blocks, (b.registers.map (·.name)).Nodup

namespace Model

variable {m : Model}

/-- A sound model is named well. -/
theorem Sound.named (h : m.Sound) : m.Named where
  maps_named := h.entities_named .memoryMap
  blocks_named := fun _ hmap => (h.maps_sound _ hmap).blocks_named
  registers_named := fun _ hmap _ hb => ((h.maps_sound _ hmap).blocks_sound _ hb).registers_named

/-- A repeated name is reported by a violation of its own kind. -/
theorem not_scopeReport (h : ∀ v ∈ m.violations, v.kind ≠ .duplicateName) (scope : Scope) (n : ℕ)
    (v : Violation) : ¬ m.ScopeReport scope n v := by
  intro hv
  obtain ⟨w, hw, hreports⟩ := Reports.exists_violation (o := .repeatedName scope n) hv
  refine h w hw ?_
  cases scope with
  | entities kind => obtain ⟨_, _, hsaid⟩ := hreports; exact hsaid.1
  | blocks n => obtain ⟨_, _, _, _, hsaid⟩ := hreports; exact hsaid.1
  | registers p => obtain ⟨_, _, _, _, hsaid⟩ := hreports; exact hsaid.1
  | fields p => obtain ⟨_, _, _, _, hsaid⟩ := hreports; exact hsaid.1

/-- A model is named well if **no violation** is about a repeated name. -/
theorem Named.of_violations (h : ∀ v ∈ m.violations, v.kind ≠ .duplicateName) : m.Named := by
  refine ⟨no_nameReport_iff.mp fun n v => not_scopeReport h (.entities .memoryMap) n v,
    fun map hmap => ?_, fun map hmap b hb => ?_⟩
  · obtain ⟨i, hi⟩ := List.getElem?_of_mem hmap
    exact no_nameReport_iff.mp fun n v hv => not_scopeReport h (.blocks i) n v ⟨map, hi, hv⟩
  · obtain ⟨i, hi⟩ := List.getElem?_of_mem hmap
    obtain ⟨j, hj⟩ := List.getElem?_of_mem hb
    exact no_nameReport_iff.mp fun n v hv =>
      not_scopeReport h (.registers (i, j)) n v ⟨⟨map, b⟩, ⟨hi, hj⟩, hv⟩

/-! ### Lookups -/

namespace Named

/-- The path of a **block** leads back to it. -/
theorem findBlock?_path (h : m.Named) {e : BlockEntry} (hmap : e.map ∈ m.memoryMaps)
    (hblock : e.block ∈ e.map.blocks) (hpoint : '.' ∉ e.map.name.toList) :
    m.findBlock? e.path = some e := by
  have hfound : m.memoryMap? e.map.name = some e.map := (find?_key_iff h.maps_named).mpr ⟨hmap, rfl⟩
  have hlisted : e.map.block? e.block.name = some e.block :=
    (find?_key_iff (h.blocks_named _ hmap)).mpr ⟨hblock, rfl⟩
  rw [findBlock?, BlockEntry.path, Text.splitFirst_path hpoint]
  simp [hfound, hlisted]

/-- The path of a **register** leads back to it. -/
theorem findRegister?_path (h : m.Named) {e : RegisterEntry} (hmap : e.map ∈ m.memoryMaps)
    (hblock : e.block ∈ e.map.blocks) (hregister : e.register ∈ e.block.registers)
    (hpoint : '.' ∉ e.map.name.toList) (hlast : '.' ∉ e.register.name.toList) :
    m.findRegister? e.path = some e := by
  have hlisted : e.block.register? e.register.name = some e.register :=
    (find?_key_iff (h.registers_named _ hmap _ hblock)).mpr ⟨hregister, rfl⟩
  rw [findRegister?, RegisterEntry.path, Text.splitLast_path _ hlast]
  simp [h.findBlock?_path hmap hblock hpoint, hlisted]

/-- The path of an **array** leads to the first array of that name. -/
theorem findArray?_path (h : m.Named) {e : BlockEntry} (hmap : e.map ∈ m.memoryMaps)
    (hblock : e.block ∈ e.map.blocks) (hpoint : '.' ∉ e.map.name.toList) {name : String}
    (hlast : '.' ∉ name.toList) :
    m.findArray? s!"{e.path}.{name}" = (e.block.array? name).map (e, ·) := by
  rw [findArray?, Text.splitLast_path _ hlast]
  cases harray : e.block.array? name <;> simp [h.findBlock?_path hmap hblock hpoint, harray]

end Named

end Model

end RegisterMap
