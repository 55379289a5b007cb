import RegisterMap.Document.Located
import RegisterMap.Proofs.Refines

/-!
# Respelled Values

A value is **respelled** if the entries of some of its mappings are put in another order and some of
its numbers are written as text. Everything that readers look at is unaffected: what stands at a
key, what a sequence lists, what a string says, and which number a value stands for.

## Conventions

Entries are put in another order only where no string key comes up twice, since a lookup takes the
first entry of its key. In parsed documents no key ever does. Numbers that are mapping keys are left
alone: a number is no string key, and its text would be one.

## Main results

* `Value.Respells.get?` — the same keys lead to respelled values.
* `Value.Respells.symm` — mappings can be put back in order.
* `Located.Respells.asNat64`, `Located.Respells.asSeq`, `Located.Respells.entries` — what readers
  see of respelled values.
-/

namespace RegisterMap

namespace Yaml.Value

/-! ### Respelling -/

/-- What a value is for: to be read, or to be looked up. -/
inductive Place where
  | value
  | key

/-- No string key comes up twice. -/
def KeysDistinct (entries : List (Value × Value)) : Prop :=
  entries.Pairwise fun e f => ∀ key, isKey key e.1 = true → isKey key f.1 = false

mutual

/-- The second value is the first one **respelled**, with text for numbers only if `numbers`
holds. -/
inductive Respells (numbers : Bool) : Place → Value → Value → Prop
  | refl (place : Place) (v : Value) : Respells numbers place v v
  | number {k : UInt64} {text : String} (hnumbers : numbers = true)
      (hparse : Literal.parse text = .ok k) : Respells numbers .value (.int k.toNat) (.str text)
  | seq {place : Place} {items items' : List Value} (h : RespellsItems numbers items items') :
      Respells numbers place (.seq items) (.seq items')
  | map {place : Place} {entries entries' reordered : List (Value × Value)}
      (h : RespellsEntries numbers entries entries') (hperm : entries'.Perm reordered)
      (horder : KeysDistinct entries ∨ entries' = reordered) :
      Respells numbers place (.map entries) (.map reordered)
  | tagged {place : Place} {v w : Value} (tag : String) (h : Respells numbers place v w) :
      Respells numbers place (.tagged tag v) (.tagged tag w)

/-- All items of the second sequence are those of the first one respelled. -/
inductive RespellsItems (numbers : Bool) : List Value → List Value → Prop
  | nil : RespellsItems numbers [] []
  | cons {v w : Value} {items items' : List Value} (h : Respells numbers .value v w)
      (hitems : RespellsItems numbers items items') :
      RespellsItems numbers (v :: items) (w :: items')

/-- All entries of the second list are those of the first one respelled, in the same order. -/
inductive RespellsEntries (numbers : Bool) : List (Value × Value) → List (Value × Value) → Prop
  | nil : RespellsEntries numbers [] []
  | cons {k l v w : Value} {entries entries' : List (Value × Value)}
      (hkey : Respells numbers .key k l) (hvalue : Respells numbers .value v w)
      (hentries : RespellsEntries numbers entries entries') :
      RespellsEntries numbers ((k, v) :: entries) ((l, w) :: entries')

end

/-- An entry respelled. -/
def RespellsEntry (numbers : Bool) (e f : Value × Value) : Prop :=
  Respells numbers .key e.1 f.1 ∧ Respells numbers .value e.2 f.2

variable {numbers : Bool} {place : Place} {v w : Value}

/-- Respelled items are respelled **one by one**. -/
theorem respellsItems_iff {items items' : List Value} :
    RespellsItems numbers items items' ↔
      List.Forall₂ (Respells numbers .value) items items' := by
  constructor
  · intro h
    induction items generalizing items' with
    | nil => cases h with | nil => exact .nil
    | cons v items ih => cases h with | cons h hitems => exact .cons h (ih hitems)
  · intro h
    induction h with
    | nil => exact .nil
    | cons h _ ih => exact .cons h ih

/-- Respelled entries are respelled one by one, in the same order. -/
theorem respellsEntries_iff {entries entries' : List (Value × Value)} :
    RespellsEntries numbers entries entries' ↔
      List.Forall₂ (RespellsEntry numbers) entries entries' := by
  constructor
  · intro h
    induction entries generalizing entries' with
    | nil => cases h with | nil => exact .nil
    | cons e entries ih =>
        cases h with | cons hkey hvalue hentries => exact .cons ⟨hkey, hvalue⟩ (ih hentries)
  · intro h
    induction h with
    | nil => exact .nil
    | cons h _ ih => exact .cons h.1 h.2 ih

/-- Entries may stay as they are. -/
theorem respellsEntry_self (entries : List (Value × Value)) :
    List.Forall₂ (RespellsEntry numbers) entries entries :=
  List.forall₂_same.mpr fun _ _ => ⟨.refl _ _, .refl _ _⟩

/-- Entries that are **respelled and reordered**, the latter only where keys are distinct. -/
def RespellsMembers (numbers : Bool) (entries reordered : List (Value × Value)) : Prop :=
  ∃ entries', List.Forall₂ (RespellsEntry numbers) entries entries' ∧ entries'.Perm reordered ∧
    (KeysDistinct entries ∨ entries' = reordered)

/-! ### Views -/

namespace Respells

/-- A respelled value is respelled under its tags. -/
theorem untag {place : Place} {v w : Value} :
    Respells numbers place v w → Respells numbers place v.untag w.untag
  | .refl .. => .refl ..
  | .number hnumbers hparse => .number hnumbers hparse
  | .seq h => .seq h
  | .map h hperm horder => .map h hperm horder
  | .tagged _ h => h.untag

/-- A **key** says the same when it is respelled. -/
theorem asStr?_key (h : Respells numbers .key v w) : w.asStr? = v.asStr? := by
  have huntag := h.untag
  rw [asStr?, asStr?]
  generalize v.untag = v at huntag
  generalize w.untag = w at huntag
  cases huntag <;> rfl

/-- A respelled key is the key that it was. -/
theorem isKey (h : Respells numbers .key v w) (key : String) : v.isKey key = w.isKey key := by
  cases h <;> rfl

/-- A **string** stays what it is; only a number can become one. -/
theorem asStr? (h : Respells numbers place v w) {s : String} (hs : v.asStr? = some s) :
    w.asStr? = some s := by
  have huntag := h.untag
  rw [Value.asStr?] at hs ⊢
  generalize v.untag = v at huntag hs
  generalize w.untag = w at huntag
  cases huntag with
  | refl => exact hs
  | _ => nomatch hs

/-- A sequence stays a sequence of as many items. -/
theorem of_seq {items : List Value} (h : Respells numbers place (.seq items) w) :
    ∃ items', w = .seq items' ∧ List.Forall₂ (Respells numbers .value) items items' := by
  cases h with
  | refl => exact ⟨items, rfl, List.forall₂_same.mpr fun v _ => .refl _ v⟩
  | seq h => exact ⟨_, rfl, respellsItems_iff.mp h⟩

/-- A mapping stays a mapping, with **entries that are respelled and reordered**. -/
theorem of_map {entries : List (Value × Value)} (h : Respells numbers place (.map entries) w) :
    ∃ entries', w = .map entries' ∧ RespellsMembers numbers entries entries' := by
  cases h with
  | refl => exact ⟨entries, rfl, entries, respellsEntry_self entries, .refl _, .inr rfl⟩
  | map h hperm horder => exact ⟨_, rfl, _, respellsEntries_iff.mp h, hperm, horder⟩

/-- What is a mapping stays one, with its entries respelled and reordered. -/
theorem asMap? (h : Respells numbers place v w) :
    Option.Rel (RespellsMembers numbers) v.asMap? w.asMap? := by
  have huntag := h.untag
  rw [Value.asMap?, Value.asMap?]
  generalize v.untag = v at huntag
  generalize w.untag = w at huntag
  cases v with
  | map entries =>
      obtain ⟨entries', rfl, hmembers⟩ := huntag.of_map
      exact .some hmembers
  | _ => cases huntag <;> exact .none

/-- Respelling makes no value a mapping, and no mapping anything else. -/
theorem isMap (h : Respells numbers place v w) : w.isMap = v.isMap :=
  (isSome_eq_of_rel h.asMap?).symm

end Respells

/-- A mapping is no string. -/
theorem asStr?_of_isMap (h : v.isMap = true) : v.asStr? = none := by
  rw [isMap, asMap?] at h
  rw [asStr?]
  generalize v.untag = v at h
  cases v <;> first | rfl | nomatch h

/-- Where keys are distinct, a key has **one entry**. -/
theorem KeysDistinct.eq_of_isKey {entries : List (Value × Value)} (hkeys : KeysDistinct entries)
    {key : String} {e f : Value × Value} (he : e ∈ entries) (hf : f ∈ entries)
    (hkeyE : isKey key e.1 = true) (hkeyF : isKey key f.1 = true) : e = f := by
  refine List.Pairwise.forall_of_forall_of_flip
    (R := fun e f => isKey key e.1 = true → isKey key f.1 = true → e = f) (fun _ _ _ _ => rfl)
    (hkeys.imp fun h hkeyE hkeyF => ?_) (hkeys.imp fun h hkeyE hkeyF => ?_) he hf hkeyE hkeyF
  · exact absurd hkeyF (by simp [h key hkeyE])
  · exact absurd hkeyE (by simp [h key hkeyF])

/-- Respelling keeps keys distinct. -/
theorem KeysDistinct.respelled {entries entries' : List (Value × Value)}
    (hkeys : KeysDistinct entries)
    (h : List.Forall₂ (RespellsEntry numbers) entries entries') : KeysDistinct entries' := by
  have hsame : entries.map (fun e key => isKey key e.1) = entries'.map fun e key => isKey key e.1 :=
    map_eq_map_iff_forall₂.mpr (h.imp fun _ _ h => funext h.1.isKey)
  have hpairwise (es : List (Value × Value)) : KeysDistinct es ↔
      (es.map fun e key => isKey key e.1).Pairwise fun a b => ∀ key, a key = true → b key = false :=
    (List.pairwise_map (R := fun a b : String → Bool => ∀ key, a key = true → b key = false)).symm
  rwa [hpairwise, ← hsame, ← hpairwise]

/-- The **same keys** lead to respelled values. -/
theorem Respells.get? (h : Respells numbers place v w) (key : String) :
    Option.Rel (Respells numbers .value) (v.get? key) (w.get? key) := by
  have hmap := h.asMap?
  rw [Value.get?, Value.get?]
  generalize v.asMap? = es at hmap
  generalize w.asMap? = fs at hmap
  cases hmap with
  | none => exact .none
  | @some es gs h =>
    obtain ⟨fs, hrespelled, hperm, horder⟩ := h
    have hfind : Option.Rel (RespellsEntry numbers) (es.find? fun e => Value.isKey key e.1)
        (fs.find? fun e => Value.isKey key e.1) := rel_find? hrespelled fun _ _ h => h.1.isKey key
    have hreordered :
        (gs.find? fun e => Value.isKey key e.1) = fs.find? fun e => Value.isKey key e.1 := by
      rcases horder with hkeys | rfl
      · have hkeys := hkeys.respelled hrespelled
        exact find?_eq_of_perm (fun _ he _ hf => hkeys.eq_of_isKey he hf) hperm
      · rfl
    rw [Option.bind_some, Option.bind_some, hreordered]
    generalize (es.find? fun e => Value.isKey key e.1) = e at hfind
    generalize (fs.find? fun e => Value.isKey key e.1) = f at hfind
    cases hfind with
    | none => exact .none
    | some h => exact .some h.2

/-! ### Putting mappings back in order -/

/-- Keys are distinct **in any order**. -/
theorem KeysDistinct.reordered {entries reordered : List (Value × Value)}
    (hkeys : KeysDistinct entries) (hperm : entries.Perm reordered) : KeysDistinct reordered := by
  refine (hperm.pairwise_iff fun h key hkey => ?_).mp hkeys
  by_contra hother
  exact absurd (h key (by simpa using hother)) (by simp [hkey])

mutual

/-- Where no number was written as text, the mappings can be **put back in order**. -/
theorem Respells.symm {place : Place} {v w : Value} :
    Respells false place v w → Respells false place w v
  | .refl .. => .refl ..
  | .seq h => .seq h.symm
  | .map h hperm horder => by
      have hback := respellsEntries_iff.mp h.symm
      rcases horder with hkeys | rfl
      · obtain ⟨entries', hentries, hperm'⟩ := List.perm_comp_forall₂ hperm.symm hback
        have hkeys' := (hkeys.respelled (respellsEntries_iff.mp h)).reordered hperm
        exact .map (respellsEntries_iff.mpr hentries) hperm' (.inl hkeys')
      · exact .map h.symm (.refl _) (.inr rfl)
  | .tagged tag h => .tagged tag h.symm

/-- The items of a sequence can be put back, one by one. -/
theorem RespellsItems.symm {items items' : List Value} :
    RespellsItems false items items' → RespellsItems false items' items
  | .nil => .nil
  | .cons h hitems => .cons h.symm hitems.symm

/-- The entries of a mapping can be put back, one by one. -/
theorem RespellsEntries.symm {entries entries' : List (Value × Value)} :
    RespellsEntries false entries entries' → RespellsEntries false entries' entries
  | .nil => .nil
  | .cons hkey hvalue hentries => .cons hkey.symm hvalue.symm hentries.symm

end

end Yaml.Value

/-! ### Located values -/

open Yaml.Value (KeysDistinct RespellsMembers RespellsEntry)

/-- A value respelled, wherever it is located. -/
def Located.Respells (numbers : Bool) (n n' : Located) : Prop :=
  Yaml.Value.Respells numbers .value n.value n'.value

/-- Placing values at paths leaves the values as they are. -/
theorem Located.mapIdx_values (values : List Yaml.Value) (path : Nat → String) :
    (values.mapIdx fun i value => (⟨value, path i⟩ : Located)).map (·.value) = values := by
  refine List.ext_getElem? fun i => ?_
  rw [List.getElem?_map, List.getElem?_mapIdx, Option.map_map]
  exact Option.map_id_apply

/-- The items of a sequence, without their paths. -/
theorem Located.asSeq_values {n : Located} {ns : List Located} (h : n.asSeq = .ok ns) :
    n.value = .seq (ns.map (·.value)) := by
  rw [Located.asSeq] at h
  split at h
  · next items heq =>
      obtain rfl := Except.ok.inj h
      rw [heq, Located.mapIdx_values]
  · nomatch h

variable {numbers : Bool} {n n' : Located}

/-- The same value at **another path**. -/
theorem Located.Respells.of_value_eq (h : n.value = n'.value) : n.Respells numbers n' := by
  rw [Located.Respells, h]
  exact .refl _ _

/-- What a key lists is compared **value by value**. -/
theorem Located.optSeq_refines {R S : Located → Located → Prop} {key : String}
    (h : Option.Rel R (n.child? key) (n'.child? key))
    (hR : ∀ c c', R c c' → Refines (List.Forall₂ S) c.asSeq c'.asSeq) :
    Refines (List.Forall₂ S) (n.optSeq key) (n'.optSeq key) := by
  rw [Located.optSeq, Located.optSeq]
  generalize n.child? key = c at h
  generalize n'.child? key = c' at h
  cases h with
  | none => exact .ok .nil
  | some h => exact hR _ _ h

/-- A named value respelled, under the same name. -/
def Located.RespellsNamed (numbers : Bool) (e f : String × Located) : Prop :=
  e.1 = f.1 ∧ e.2.Respells numbers f.2

namespace Located.Respells

/-- Nothing about respelling depends on **where the values stand**. -/
theorem renamed (h : n.Respells numbers n') (path path' : String) :
    (n.renamed path).Respells numbers (n'.renamed path') := h

/-- A respelled value is a mapping if the value was one. -/
theorem isMapping (h : n.Respells numbers n') : n'.isMapping = n.isMapping :=
  Yaml.Value.Respells.isMap h

/-- A child is respelled if **the value at its key** is. -/
theorem child?_of_get? {key : String}
    (h : Option.Rel (Yaml.Value.Respells numbers .value) (n.value.get? key) (n'.value.get? key)) :
    Option.Rel (Located.Respells numbers) (n.child? key) (n'.child? key) := by
  rw [Located.child?, Located.child?]
  generalize n.value.get? key = v at h
  generalize n'.value.get? key = w at h
  cases h with
  | none => exact .none
  | some h =>
      cases h with
      | refl => split <;> first | exact .none | exact .some (.of_value_eq rfl)
      | number hnumbers hparse => exact .some (Yaml.Value.Respells.number hnumbers hparse)
      | seq h => exact .some (Yaml.Value.Respells.seq h)
      | map h hperm horder => exact .some (Yaml.Value.Respells.map h hperm horder)
      | tagged tag h => exact .some (Yaml.Value.Respells.tagged tag h)

/-- What is at a key is respelled. -/
theorem child? (h : n.Respells numbers n') (key : String) :
    Option.Rel (Located.Respells numbers) (n.child? key) (n'.child? key) :=
  child?_of_get? (Yaml.Value.Respells.get? h key)

/-- What is at a key is respelled if the key leads to the same value. -/
theorem child?_of_get?_eq {key : String} (h : n.value.get? key = n'.value.get? key) :
    Option.Rel (Located.Respells numbers) (n.child? key) (n'.child? key) := by
  refine child?_of_get? ?_
  rw [h]
  cases n'.value.get? key with
  | none => exact .none
  | some v => exact .some (.refl _ v)

/-- A respelled mapping **has the same keys**. -/
theorem has (h : n.Respells numbers n') (key : String) : n'.has key = n.has key :=
  (isSome_eq_of_rel (h.child? key)).symm

/-- The first of several keys that leads somewhere does so after respelling. -/
theorem childAny? (h : n.Respells numbers n') (keys : List String) :
    Option.Rel (Located.Respells numbers) (n.childAny? keys) (n'.childAny? keys) := by
  rw [Located.childAny?, Located.childAny?]
  induction keys with
  | nil => exact .none
  | cons key keys ih =>
      have hchild := h.child? key
      rw [List.findSome?_cons, List.findSome?_cons]
      generalize n.child? key = c at hchild
      generalize n'.child? key = c' at hchild
      cases hchild with
      | none => exact ih
      | some h => exact .some h

/-- A respelled mapping has as many string keys. -/
theorem stringKeyCount (h : n.Respells numbers n') : n'.stringKeyCount = n.stringKeyCount := by
  rw [Located.Respells] at h
  rw [Located.stringKeyCount, Located.stringKeyCount]
  generalize n.value = v at h
  generalize n'.value = w at h
  cases v with
  | map entries =>
      obtain ⟨reordered, rfl, entries', hentries, hperm, -⟩ := h.of_map
      have hkeys : entries.map (·.1.asStr?) = entries'.map (·.1.asStr?) :=
        map_eq_map_iff_forall₂.mpr (hentries.imp fun _ _ h => h.1.asStr?_key.symm)
      have hcount (es : List (Yaml.Value × Yaml.Value)) :
          (es.filter fun e => e.1.asStr?.isSome).length =
            (es.map (·.1.asStr?)).countP (·.isSome) := by
        rw [List.countP_map, List.countP_eq_length_filter]
        rfl
      dsimp only
      rw [hcount, hcount, hkeys, (hperm.map _).countP_eq]
  | _ => cases h <;> rfl

/-- Where a mapping is expected and there is one, there is one after respelling. -/
theorem expectMapping (h : n.Respells numbers n') (what : String) :
    Refines Eq (n.expectMapping what) (n'.expectMapping what) := by
  rw [Located.expectMapping, Located.expectMapping, h.isMapping]
  split
  · exact .refl _
  · exact .failAt _ _

/-- What has to be at a key and is there, is respelled. -/
theorem require (h : n.Respells numbers n') (key : String) :
    Refines (Located.Respells numbers) (n.require key) (n'.require key) := by
  have hchild := h.child? key
  rw [Located.require, Located.require]
  generalize n.child? key = c at hchild
  generalize n'.child? key = c' at hchild
  cases hchild with
  | none => exact .failAt _ _
  | some h => exact .ok h

/-- A text is read as **the same text**. -/
theorem asStr (h : n.Respells numbers n') : Refines Eq n.asStr n'.asStr := by
  rw [Located.asStr, Located.asStr]
  cases hs : n.value.asStr? with
  | none => exact .failAt _ _
  | some s =>
    rw [Yaml.Value.Respells.asStr? h hs]
    exact .refl _

/-- Where only mappings are read on, the strings are **the same**. -/
theorem asStr?_orMapping {α β : Type} {R : α → β → Prop} (h : n.Respells numbers n') (what : String)
    {named : String → Checked α} {named' : String → Checked β} {read : Unit → Checked α}
    {read' : Unit → Checked β} (hnamed : ∀ s, Refines R (named s) (named' s))
    (hread : Refines R (read ()) (read' ())) :
    Refines R
      (match n.value.asStr? with
        | some s => named s
        | none => n.expectMapping what >>= read)
      (match n'.value.asStr? with
        | some s => named' s
        | none => n'.expectMapping what >>= read') := by
  cases hs : n.value.asStr? with
  | some s =>
      rw [Yaml.Value.Respells.asStr? h hs]
      exact hnamed s
  | none =>
      by_cases hmap : n.isMapping = true
      · rw [Yaml.Value.asStr?_of_isMap (h.isMapping.trans hmap)]
        exact (h.expectMapping what).bindEq fun _ => hread
      · rw [Located.expectMapping, if_neg hmap]
        exact fun _ h => nomatch h

/-- A number is read as the same number, **written as a number or as text**. -/
theorem asNat64 (h : n.Respells numbers n') : Refines Eq n.asNat64 n'.asNat64 := by
  rw [Located.asNat64, Located.asNat64]
  rw [Located.Respells] at h
  generalize n.value = v at h
  generalize n'.value = w at h
  cases h with
  | refl =>
      cases v with
      | int | str =>
          dsimp only
          split
          · exact .refl _
          · exact .failAt _ _
      | _ => exact .failAt _ _
  | @number k text _ hparse =>
      dsimp only
      rw [hparse, if_pos (Int.natCast_nonneg _), Int.toNat_natCast, UInt64.ofNat_toNat]
      exact .refl _
  | _ => exact .failAt _ _

/-- So is a number of 32 bits. -/
theorem asNat32 (h : n.Respells numbers n') : Refines Eq n.asNat32 n'.asNat32 := by
  refine h.asNat64.bindEq fun k => ?_
  split
  · exact .refl _
  · exact .failAt _ _

/-- A sequence is read item by item. -/
theorem asSeq (h : n.Respells numbers n') :
    Refines (List.Forall₂ (Located.Respells numbers)) n.asSeq n'.asSeq := by
  rw [Located.Respells] at h
  rw [Located.asSeq, Located.asSeq]
  generalize n.value = v at h
  generalize n'.value = w at h
  cases v with
  | seq items =>
      obtain ⟨items', rfl, hitems⟩ := h.of_seq
      exact .ok (rel_mapIdx hitems fun _ _ _ h => h)
  | _ => exact .failAt _ _

/-- So is a sequence or a single item. -/
theorem asSeqOrOne (h : n.Respells numbers n') :
    Refines (List.Forall₂ (Located.Respells numbers)) n.asSeqOrOne n'.asSeqOrOne := by
  rw [Located.asSeqOrOne, Located.asSeqOrOne, h.isMapping]
  split
  · exact .ok (.cons h .nil)
  · exact h.asSeq

/-- The entries of a mapping are the same **up to their order**. -/
theorem entries (h : n.Respells numbers n') :
    Refines (PermRel (RespellsNamed numbers)) n.entries n'.entries := by
  rw [Located.Respells] at h
  rw [Located.entries, Located.entries]
  generalize n.value = v at h
  generalize n'.value = w at h
  cases v with
  | map entries =>
      obtain ⟨reordered, rfl, entries', hentries, hperm, -⟩ := h.of_map
      refine Refines.mapMPerm ⟨entries', hentries, hperm⟩ fun e f hef => ?_
      dsimp only
      rw [hef.1.asStr?_key]
      split
      · exact .ok ⟨rfl, hef.2⟩
      · exact .failAt _ _
  | _ => exact .failAt _ _

/-- The name is the same. -/
theorem name (h : n.Respells numbers n') : Refines Eq n.name n'.name :=
  (h.require "name").bind fun _ _ h => h.asStr

/-- An optional text is the same. -/
theorem optStr (h : n.Respells numbers n') (key : String) :
    Refines Eq (n.optStr key) (n'.optStr key) :=
  .optionMapM (h.child? key) fun _ _ h => h.asStr

/-- A number under one of several names is the same. -/
theorem optNat64 (h : n.Respells numbers n') (keys : List String) :
    Refines Eq (n.optNat64 keys) (n'.optNat64 keys) :=
  .optionMapM (h.childAny? keys) fun _ _ h => h.asNat64

/-- So is a number of 32 bits. -/
theorem optNat32 (h : n.Respells numbers n') (keys : List String) :
    Refines Eq (n.optNat32 keys) (n'.optNat32 keys) :=
  .optionMapM (h.childAny? keys) fun _ _ h => h.asNat32

/-- What a key lists is respelled if **its value** is. -/
theorem optSeq_of_child? {key : String}
    (h : Option.Rel (Located.Respells numbers) (n.child? key) (n'.child? key)) :
    Refines (List.Forall₂ (Located.Respells numbers)) (n.optSeq key) (n'.optSeq key) :=
  optSeq_refines h fun _ _ h => h.asSeq

/-- An optional sequence is respelled item by item. -/
theorem optSeq (h : n.Respells numbers n') (key : String) :
    Refines (List.Forall₂ (Located.Respells numbers)) (n.optSeq key) (n'.optSeq key) :=
  optSeq_of_child? (h.child? key)

end Located.Respells

end RegisterMap
