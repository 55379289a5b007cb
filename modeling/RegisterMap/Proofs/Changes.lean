import RegisterMap.Proofs.Merging

/-!
# Changing a Document in Places

Two documents that differ in some places only are read alike everywhere else. `ChangedAt` and
`EachItem` say where two values may differ, and lead from a section to the part in question. All
that is left alone stays at its path, so that what is read from it is not just alike but equal.

## Main results

* `Value.ChangedAt.get?` — a key leads to the same value, or to a related one.
* `Located.AgreeAt` — values that agree at some keys, and what is read at these keys.
* `Located.Rel.child?`, `Located.Rel.asSeq` — the way to the places that differ.
* `Value.ChangedAt.sameOutline` — a changed section keeps the shape of its document.
-/

namespace RegisterMap

open Yaml (Value)

section Changes

variable {options : Options}

/-! ### Values that differ in some places -/

namespace Yaml.Value

/-- The same entry of a mapping, except that its value may be a related one if its key is `key`. -/
def ChangedEntry (key : String) (R : Value → Value → Prop) (e f : Value × Value) : Prop :=
  e.1 = f.1 ∧ (e.2 = f.2 ∨ (isKey key e.1 = true ∧ R e.2 f.2))

/-- The same value, **except at one key** of a mapping, where there may be a related one. -/
inductive ChangedAt (key : String) (R : Value → Value → Prop) : Value → Value → Prop
  | same (v : Value) : ChangedAt key R v v
  | map {entries entries' : List (Value × Value)}
      (h : List.Forall₂ (ChangedEntry key R) entries entries') :
      ChangedAt key R (.map entries) (.map entries')
  | tagged {v w : Value} (tag : String) (h : ChangedAt key R v w) :
      ChangedAt key R (.tagged tag v) (.tagged tag w)

/-- The same value, or sequences with **related items**. -/
inductive EachItem (R : Value → Value → Prop) : Value → Value → Prop
  | same (v : Value) : EachItem R v v
  | seq {items items' : List Value} (h : List.Forall₂ R items items') :
      EachItem R (.seq items) (.seq items')

variable {key : String} {R : Value → Value → Prop} {v w : Value}

/-- What a key leads to, **null left out**. -/
theorem at?_eq_some_iff : v.at? key = some w ↔ v.get? key = some w ∧ w ≠ .null := by
  rw [at?]
  cases v.get? key with
  | none => simp
  | some a => cases a <;> simp <;> rintro rfl <;> simp

/-- A mapping that holds under a key just what another one has there, null left out, has **the
same** there. -/
theorem at?_of_get?_eq (h : w.get? key = v.at? key) : w.at? key = v.at? key := by
  refine Option.ext fun a => ?_
  rw [at?_eq_some_iff, h]
  exact and_iff_left_of_imp fun ha => (at?_eq_some_iff.mp ha).2

/-- A key is the same key as **one text** only. -/
theorem isKey_unique {k : String} (h : isKey k v = true) (h' : isKey key v = true) : k = key := by
  cases v with
  | str s =>
      have hk : s = k := by simpa [isKey] using h
      have hkey : s = key := by simpa [isKey] using h'
      exact hk.symm.trans hkey
  | _ => simp [isKey] at h

namespace ChangedAt

/-- The values without their tags are changed at the same key. -/
theorem untag {v w : Value} : ChangedAt key R v w → ChangedAt key R v.untag w.untag
  | .same _ => .same _
  | .map h => .map h
  | .tagged _ h => h.untag

/-- Changed mappings have their entries **one for one**, changed at the key. -/
theorem asMap? (h : ChangedAt key R v w) :
    Option.Rel (List.Forall₂ (ChangedEntry key R)) v.asMap? w.asMap? := by
  have huntag := h.untag
  rw [Value.asMap?, Value.asMap?]
  generalize v.untag = v at huntag
  generalize w.untag = w at huntag
  cases huntag with
  | same v =>
      cases v with
      | map entries => exact .some (List.forall₂_same.mpr fun e _ => ⟨rfl, .inl rfl⟩)
      | _ => exact .none
  | map h => exact .some h
  | tagged => exact .none

/-- A changed value is a mapping if the value was one. -/
theorem isMap (h : ChangedAt key R v w) : v.isMap = w.isMap := isSome_eq_of_rel h.asMap?

/-- The same keys lead to **the same values**, or to related ones. -/
theorem get? (h : ChangedAt key R v w) (k : String) :
    Option.Rel (fun a b => a = b ∨ (k = key ∧ R a b)) (v.get? k) (w.get? k) := by
  have hmap := h.asMap?
  rw [Value.get?, Value.get?]
  generalize v.asMap? = es at hmap
  generalize w.asMap? = fs at hmap
  cases hmap with
  | none => exact .none
  | @some es fs h =>
      have hfind : Option.Rel (ChangedEntry key R) (es.find? fun e => Value.isKey k e.1)
          (fs.find? fun e => Value.isKey k e.1) := rel_find? h fun _ _ h => by rw [h.1]
      rw [Option.bind_some, Option.bind_some]
      cases he : es.find? fun e => Value.isKey k e.1 with
      | none =>
          rw [he] at hfind
          generalize (fs.find? fun e => Value.isKey k e.1) = f at hfind
          cases hfind
          exact .none
      | some e =>
          have hkey : Value.isKey k e.1 = true := by simpa using List.find?_some he
          rw [he] at hfind
          generalize (fs.find? fun e => Value.isKey k e.1) = f at hfind
          cases hfind with
          | some h => exact .some (h.2.imp_right fun h => ⟨isKey_unique hkey h.1, h.2⟩)

/-- A changed mapping has **the same keys**. -/
theorem isSome_get? (h : ChangedAt key R v w) (k : String) :
    (v.get? k).isSome = (w.get? k).isSome := isSome_eq_of_rel (h.get? k)

/-- Another key leads to **the same value**. -/
theorem at?_of_ne (h : ChangedAt key R v w) {k : String} (hne : k ≠ key) : v.at? k = w.at? k := by
  have hget := h.get? k
  rw [Value.at?, Value.at?]
  generalize v.get? k = a at hget
  generalize w.get? k = b at hget
  cases hget with
  | none => rfl
  | some h =>
      rcases h with rfl | ⟨rfl, -⟩
      · rfl
      · exact absurd rfl hne

/-- A change makes no value null, and no null anything else. -/
theorem eq_null_iff (h : ChangedAt key R v w) : v = .null ↔ w = .null := by
  cases h <;> simp

/-- What stands at the key is **related**. -/
theorem at?_self (h : ChangedAt key R v w) (hrefl : ∀ v, R v v)
    (hnull : ∀ v w, R v w → (v = .null ↔ w = .null)) : Option.Rel R (v.at? key) (w.at? key) := by
  have hget := h.get? key
  generalize hv : v.get? key = a at hget
  generalize hw : w.get? key = b at hget
  cases hget with
  | none =>
      rw [Value.at?, Value.at?, hv, hw]
      exact .none
  | @some a b h =>
      have hR : R a b := by
        rcases h with rfl | ⟨-, h⟩
        · exact hrefl a
        · exact h
      by_cases ha : a = .null
      · have hb : b = .null := (hnull a b hR).mp ha
        rw [Value.at?, Value.at?, hv, hw, ha, hb]
        exact .none
      · have hb : b ≠ .null := mt (hnull a b hR).mpr ha
        rw [at?_eq_some_iff.mpr ⟨hv, ha⟩, at?_eq_some_iff.mpr ⟨hw, hb⟩]
        exact .some hR

end ChangedAt

/-- A change of items makes no value null either. -/
theorem EachItem.eq_null_iff (h : EachItem R v w) : v = .null ↔ w = .null := by
  cases h <;> simp

end Yaml.Value

open Yaml.Value (ChangedAt EachItem)

/-- A changed section keeps **the outline** its document is told by. -/
theorem Yaml.Value.ChangedAt.sameOutline {key : String} {R : Value → Value → Prop} {v w : Value}
    (h : ChangedAt key R v w) : Shape.SameOutline v w where
  seq items hv := by
    subst hv
    cases h
    exact ⟨items, rfl⟩
  map entries hv := by
    subst hv
    cases h with
    | same => exact ⟨entries, rfl⟩
    | map => exact ⟨_, rfl⟩
  isMap := h.isMap
  keys := h.isSome_get?

/-! ### Values at one path -/

namespace Located

/-- Related values at the same path. -/
def Rel (R : Value → Value → Prop) (n n' : Located) : Prop :=
  n.path = n'.path ∧ R n.value n'.value

/-- Values at the same path that have **the same at some keys**. -/
structure AgreeAt (keys : String → Prop) (n n' : Located) : Prop where
  path : n.path = n'.path
  at? : ∀ key, keys key → n.value.at? key = n'.value.at? key

namespace AgreeAt

variable {keys : String → Prop} {n n' : Located} {key : String}

/-- What is read at a key where both agree **is the same**. -/
theorem child? (h : n.AgreeAt keys n') (hkey : keys key) : n.child? key = n'.child? key := by
  rw [Located.child?_eq, Located.child?_eq, h.at? key hkey, h.path]

/-- So it is if the key has to be there. -/
theorem require (h : n.AgreeAt keys n') (hkey : keys key) : n.require key = n'.require key := by
  rw [Located.require, Located.require, h.child? hkey, Located.fail, Located.fail, h.path]

/-- The names are the same, or fail in the same way. -/
theorem name (h : n.AgreeAt keys n') (hkey : keys "name") : n.name = n'.name := by
  rw [Located.name, Located.name, h.require hkey]

/-- An optional text at such a key is the same. -/
theorem optStr (h : n.AgreeAt keys n') (hkey : keys key) : n.optStr key = n'.optStr key := by
  rw [Located.optStr, Located.optStr, h.child? hkey]

/-- An optional sequence at such a key is the same. -/
theorem optSeq (h : n.AgreeAt keys n') (hkey : keys key) : n.optSeq key = n'.optSeq key := by
  rw [Located.optSeq, Located.optSeq, h.child? hkey]

/-- A number under one of several names is the same if both agree **at all its names**. -/
theorem optNat64 (h : n.AgreeAt keys n') {ks : List String} (hkeys : ∀ key ∈ ks, keys key) :
    n.optNat64 ks = n'.optNat64 ks := by
  have hchild : n.childAny? ks = n'.childAny? ks := by
    induction ks with
    | nil => rfl
    | cons key ks ih =>
        rw [List.forall_mem_cons] at hkeys
        rw [childAny?, childAny?, List.findSome?_cons, List.findSome?_cons, h.child? hkeys.1]
        split
        · rfl
        · exact ih hkeys.2
  rw [Located.optNat64, Located.optNat64, hchild]

/-- The count of an array is the same. -/
theorem readCount (h : n.AgreeAt keys n') (hkey : keys "count") :
    RegisterMap.readCount options n = RegisterMap.readCount options n' := by
  simp only [RegisterMap.readCount, h.require hkey, Located.fail, h.path]

end AgreeAt

/-- A value that is there is read **at the path of its key**. -/
theorem require_eq {n : Located} {key : String} {v : Value} (h : n.value.at? key = some v) :
    n.require key = .ok ⟨v, s!"{n.path}.{key}"⟩ := by
  rw [require, child?_eq, h]
  rfl

/-- A text is read, at any path. -/
theorem asStr_eq {v : Value} {s : String} (h : v.asStr? = some s) (path : String) :
    asStr ⟨v, path⟩ = .ok s := by
  rw [asStr, h]

/-- Whether a value is a text does not depend on **where it stands**. -/
theorem asStr_refines (v : Value) (path path' : String) :
    Refines Eq (asStr ⟨v, path⟩) (asStr ⟨v, path'⟩) :=
  (show Respells false ⟨v, path⟩ ⟨v, path'⟩ from .of_value_eq rfl).asStr

/-- A name does not depend on **where it stands**. -/
theorem name_refines {n n' : Located} (h : n.value.at? "name" = n'.value.at? "name") :
    Refines Eq n.name n'.name := by
  cases hname : n.value.at? "name" with
  | none =>
      rw [name, require, child?_eq, hname]
      exact .failAt _ _
  | some v =>
      rw [name, name, require_eq hname, require_eq (h.symm.trans hname)]
      exact asStr_refines v _ _

/-- An entry is there if its key leads to something, null left out. -/
theorem has_eq {n : Located} (key : String) : n.has key = (n.value.at? key).isSome := by
  rw [has, child?_eq, Option.isSome_map]

/-- Where one of two keys has no value, their order does not matter. -/
theorem optNat64_swap {n : Located} {a b : String}
    (h : n.value.at? a = none ∨ n.value.at? b = none) : n.optNat64 [a, b] = n.optNat64 [b, a] := by
  have hchild : n.childAny? [a, b] = n.childAny? [b, a] := by
    rcases h with h | h <;>
      simp only [childAny?, List.findSome?_cons, List.findSome?_nil, child?_eq, h, Option.map_none]
  rw [optNat64, optNat64, hchild]

/-! ### Changed values at one path -/

variable {R : Value → Value → Prop} {key : String} {n n' : Located}

/-- Values changed at a key agree **at all the others**. -/
theorem Rel.agreeAt (h : n.Rel (ChangedAt key R) n') : n.AgreeAt (· ≠ key) n' :=
  ⟨h.1, fun _ hne => h.2.at?_of_ne hne⟩

/-- A changed value is a mapping where the value is one. -/
theorem Rel.isMapping (h : n.Rel (ChangedAt key R) n') : n.isMapping = n'.isMapping :=
  h.2.isMap

/-- So it fails in the same way where a mapping is expected. -/
theorem Rel.expectMapping (h : n.Rel (ChangedAt key R) n') (what : String) :
    n.expectMapping what = n'.expectMapping what := by
  rw [Located.expectMapping, Located.expectMapping, h.isMapping, fail, fail, h.1]

/-- Moving both to another path keeps them related. -/
theorem Rel.renamed (h : n.Rel R n') (path : String) :
    (n.renamed path).Rel R (n'.renamed path) := ⟨rfl, h.2⟩

/-- The key that is changed leads to **related values**, at one path. -/
theorem Rel.child? (h : n.Rel (ChangedAt key R) n') (hrefl : ∀ v, R v v)
    (hnull : ∀ v w, R v w → (v = .null ↔ w = .null)) :
    Option.Rel (Rel R) (n.child? key) (n'.child? key) := by
  have hat := h.2.at?_self hrefl hnull
  rw [child?_eq, child?_eq, h.1]
  generalize n.value.at? key = a at hat
  generalize n'.value.at? key = b at hat
  cases hat with
  | none => exact .none
  | some hR => exact .some ⟨rfl, hR⟩

/-- Sequences with related items are read **item by item**, at the same paths. -/
theorem Rel.asSeq (h : n.Rel (EachItem R) n') (hrefl : ∀ v, R v v) :
    Refines (List.Forall₂ (Rel R)) n.asSeq n'.asSeq := by
  obtain ⟨v, path⟩ := n
  obtain ⟨w, path'⟩ := n'
  obtain ⟨rfl, h⟩ := h
  have hitems {items items' : List Value} (h : List.Forall₂ R items items') :
      Refines (List.Forall₂ (Rel R)) (Located.asSeq ⟨.seq items, path⟩)
        (Located.asSeq ⟨.seq items', path⟩) :=
    .ok (rel_mapIdx h fun _ _ _ h => ⟨rfl, h⟩)
  cases h with
  | seq h => exact hitems h
  | same v =>
      cases v with
      | seq items => exact hitems (List.forall₂_same.mpr fun v _ => hrefl v)
      | _ => exact .failAt _ _

end Located

end Changes

end RegisterMap
