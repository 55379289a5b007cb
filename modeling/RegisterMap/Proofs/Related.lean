import Mathlib.Data.List.Perm.Basic

/-!
# Related Lists

Two lists are compared item by item, in order or up to order. What is found in one of them, what a
map makes of it and how its items are numbered then is related as well.

## Main results

* `map_eq_map_iff_forall₂` — agreement as lists is agreement item by item.
* `rel_find?`, `rel_mapIdx` — finding and numbering the items of related lists.
* `find?_eq_of_perm` — finding what is there only once.
* `PermRel` — lists that are related up to order.
-/

namespace RegisterMap

variable {α β γ δ : Type}

/-! ### Lists in order -/

/-- In related lists, every item of the second is related to one of the first. -/
theorem exists_of_mem_of_forall₂ {R : α → β → Prop} {items : List α} {bs : List β}
    (h : List.Forall₂ R items bs) {b : β} (hb : b ∈ bs) : ∃ a ∈ items, R a b := by
  induction h with
  | nil => nomatch hb
  | cons hab _ ih =>
      rcases List.mem_cons.mp hb with rfl | hb
      · exact ⟨_, List.mem_cons_self, hab⟩
      · obtain ⟨a, ha, hR⟩ := ih hb
        exact ⟨a, List.mem_cons_of_mem _ ha, hR⟩

/-- Lists agree in something exactly when they agree in it **item by item**. -/
theorem map_eq_map_iff_forall₂ {f : α → γ} {g : β → γ} {items : List α} {bs : List β} :
    items.map f = bs.map g ↔ List.Forall₂ (fun a b => f a = g b) items bs := by
  rw [← List.forall₂_eq_eq_eq, List.forall₂_map_left_iff, List.forall₂_map_right_iff]

/-- In related lists, related items are found. -/
theorem rel_find? {R : α → β → Prop} {p : α → Bool} {q : β → Bool} {items : List α} {bs : List β}
    (h : List.Forall₂ R items bs) (hpq : ∀ a b, R a b → p a = q b) :
    Option.Rel R (items.find? p) (bs.find? q) := by
  induction h with
  | nil => exact .none
  | @cons a b _ _ hab _ ih =>
      rw [List.find?_cons, List.find?_cons, hpq a b hab]
      split
      · exact .some hab
      · exact ih

/-- Optional items that are related are there, or not, together. -/
theorem isSome_eq_of_rel {R : α → β → Prop} {o : Option α} {o' : Option β}
    (h : Option.Rel R o o') : o.isSome = o'.isSome := by
  cases h <;> rfl

/-- Related items are numbered alike. -/
theorem rel_mapIdx {R : α → β → Prop} {S : γ → δ → Prop} {f : Nat → α → γ}
    {g : Nat → β → δ} {items : List α} {bs : List β} (h : List.Forall₂ R items bs)
    (hfg : ∀ i a b, R a b → S (f i a) (g i b)) :
    List.Forall₂ S (items.mapIdx f) (bs.mapIdx g) := by
  induction h generalizing f g with
  | nil => exact .nil
  | cons hab _ ih =>
      rw [List.mapIdx_cons, List.mapIdx_cons]
      exact .cons (hfg 0 _ _ hab) (ih fun i => hfg (i + 1))

/-! ### Lists up to order -/

/-- Where an item is found at most once, **the order does not matter**. -/
theorem find?_eq_of_perm {p : α → Bool} {items items' : List α}
    (hunique : ∀ a ∈ items, ∀ b ∈ items, p a = true → p b = true → a = b)
    (hperm : items.Perm items') : items'.find? p = items.find? p := by
  cases h : items.find? p with
  | none =>
      rw [List.find?_eq_none] at h ⊢
      exact fun a ha => h a (hperm.mem_iff.mpr ha)
  | some a =>
      have ha := List.mem_of_find?_eq_some h
      have hpa := List.find?_some h
      cases h' : items'.find? p with
      | none => exact absurd hpa (List.find?_eq_none.mp h' a (hperm.mem_iff.mp ha))
      | some b =>
          have hb := hperm.mem_iff.mpr (List.mem_of_find?_eq_some h')
          rw [hunique b hb a ha (List.find?_some h') hpa]

/-- The lists are related item by item **up to the order** of the second one. -/
def PermRel (R : α → β → Prop) (items : List α) (bs : List β) : Prop :=
  ∃ bs', List.Forall₂ R items bs' ∧ bs'.Perm bs

namespace PermRel

variable {R : α → β → Prop}

/-- Nothing is related to nothing. -/
theorem nil : PermRel R [] [] := ⟨[], .nil, .nil⟩

/-- Lists that are related up to order stay so one after the other. -/
theorem append {items more : List α} {bs cs : List β} (h : PermRel R items bs)
    (hmore : PermRel R more cs) : PermRel R (items ++ more) (bs ++ cs) := by
  obtain ⟨bs', hbs, hperm⟩ := h
  obtain ⟨cs', hcs, hpermMore⟩ := hmore
  exact ⟨bs' ++ cs', List.rel_append hbs hcs, hperm.append hpermMore⟩

end PermRel

end RegisterMap
