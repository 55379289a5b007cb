import RegisterMap.Proofs.Ensures

/-!
# Computations That Reproduce Each Other

Two readings of the same thing, written in two ways, are compared result by result: `Refines R x y`
says that whenever `x` has a result, `y` has one that is `R`-related to it. Nothing is said where
`x` fails, so two computations that reproduce each other both fail or both have related results.
The rules follow the way such computations are written, like those of `Ensures`.

## Main results

* `Refines.bind`, `Refines.bindEq` — a computation followed by another.
* `Refines.mapM`, `Refines.mapMPerm` — loops over lists that are related, in order or up to order.
* `Refines.optionMapM` — optional parts.
-/

namespace RegisterMap

variable {α β γ δ : Type}

/-- **Refines.** Every result of `x` is reproduced by `y`, up to `R`. -/
def Refines (R : α → β → Prop) (x : Checked α) (y : Checked β) : Prop :=
  ∀ a, x = .ok a → ∃ b, y = .ok b ∧ R a b

namespace Refines

variable {R : α → β → Prop} {S : γ → δ → Prop} {x : Checked α} {y : Checked β}

/-- Related results reproduce each other. -/
theorem ok {a : α} {b : β} (h : R a b) : Refines R (.ok a) (.ok b) := by
  rintro _ ⟨⟩
  exact ⟨b, rfl, h⟩

/-- A computation that fails is reproduced by any other. -/
theorem failAt (path : String) (problem : Problem) :
    Refines R (RegisterMap.failAt path problem) y := fun _ h => nomatch h

/-- A computation reproduces itself. -/
theorem refl (x : Checked α) : Refines Eq x x := fun a h => ⟨a, h, rfl⟩

/-- Results may be related more loosely. -/
theorem imp {R' : α → β → Prop} (h : Refines R x y) (himp : ∀ a b, R a b → R' a b) :
    Refines R' x y := fun a ha =>
  let ⟨b, hb, hR⟩ := h a ha
  ⟨b, hb, himp a b hR⟩

/-- What follows a computation is compared on related results. -/
theorem bind {f : α → Checked γ} {g : β → Checked δ} (h : Refines R x y)
    (hf : ∀ a b, R a b → Refines S (f a) (g b)) : Refines S (x >>= f) (y >>= g) := by
  intro c hc
  obtain ⟨a, ha, hc⟩ := bind_eq_ok_iff.mp hc
  obtain ⟨b, hb, hR⟩ := h a ha
  obtain ⟨d, hd, hS⟩ := hf a b hR c hc
  exact ⟨d, bind_eq_ok_iff.mpr ⟨b, hb, hd⟩, hS⟩

/-- What follows a computation that is reproduced exactly is compared on the same result. -/
theorem bindEq {x y : Checked α} {f : α → Checked γ} {g : α → Checked δ} (h : Refines Eq x y)
    (hf : ∀ a, Refines S (f a) (g a)) : Refines S (x >>= f) (y >>= g) :=
  h.bind fun a _ hab => hab ▸ hf a

/-- The same computation may come first in both. -/
theorem first {x : Checked α} {f : α → Checked γ} {g : α → Checked δ}
    (hf : ∀ a, Refines S (f a) (g a)) : Refines S (x >>= f) (x >>= g) :=
  (refl x).bindEq hf

/-- What follows a computation may be reproduced without it. -/
theorem after {f : α → Checked γ} {y : Checked δ} (hf : ∀ a, Refines S (f a) y) :
    Refines S (x >>= f) y := by
  intro c hc
  obtain ⟨a, -, hc⟩ := bind_eq_ok_iff.mp hc
  exact hf a c hc

/-- A check of the same condition is passed by both. -/
theorem check {c : Prop} [Decidable c] {path path' : String} {problem problem' : Problem}
    {k : Unit → Checked γ} {k' : Unit → Checked δ} {passed : Checked γ} {passed' : Checked δ}
    (h : Refines S passed passed') :
    Refines S (if c then RegisterMap.failAt path problem >>= k else passed)
      (if c then RegisterMap.failAt path' problem' >>= k' else passed') := by
  by_cases hc : c
  · rw [if_pos hc, if_pos hc]
    exact fun _ h => nomatch h
  · rw [if_neg hc, if_neg hc]
    exact h

/-- Loops over related lists have related results, one by one. -/
theorem mapM {P : α → β → Prop} {f : α → Checked γ} {g : β → Checked δ} {items : List α}
    {items' : List β} (hitems : List.Forall₂ P items items')
    (hf : ∀ a b, P a b → Refines S (f a) (g b)) :
    Refines (List.Forall₂ S) (items.mapM f) (items'.mapM g) := by
  induction hitems with
  | nil => exact ok .nil
  | cons hab _ ih =>
      rw [List.mapM_cons, List.mapM_cons]
      exact (hf _ _ hab).bind fun _ _ hS => ih.bind fun _ _ hrest => ok (.cons hS hrest)

/-- A loop that is reproduced exactly in every turn is reproduced exactly. -/
theorem mapMEq {P : α → β → Prop} {f : α → Checked γ} {g : β → Checked γ} {items : List α}
    {items' : List β} (hitems : List.Forall₂ P items items')
    (hf : ∀ a b, P a b → Refines Eq (f a) (g b)) :
    Refines Eq (items.mapM f) (items'.mapM g) :=
  (mapM hitems hf).imp fun _ _ h => List.forall₂_eq_eq_eq ▸ h

/-- Loops over lists that are related up to order have results that are related up to order. -/
theorem mapMPerm {P : α → β → Prop} {f : α → Checked γ} {g : β → Checked δ} {items : List α}
    {items' : List β} (hitems : PermRel P items items')
    (hf : ∀ a b, P a b → Refines S (f a) (g b)) :
    Refines (PermRel S) (items.mapM f) (items'.mapM g) := by
  obtain ⟨inOrder, hinOrder, hperm⟩ := hitems
  intro cs hcs
  obtain ⟨ds, hds, hrel⟩ := mapM hinOrder hf cs hcs
  obtain ⟨ds', hds', hpermDs⟩ := List.perm_comp_forall₂ hperm.symm (mapM_eq_ok_iff.mp hds)
  exact ⟨ds', mapM_eq_ok_iff.mpr hds', ds, hrel, hpermDs.symm⟩

/-- An optional part that is reproduced exactly wherever it is there. -/
theorem optionMapM {P : α → β → Prop} {f : α → Checked γ} {g : β → Checked γ} {o : Option α}
    {o' : Option β} (ho : Option.Rel P o o') (hf : ∀ a b, P a b → Refines Eq (f a) (g b)) :
    Refines Eq (o.mapM f) (o'.mapM g) := by
  cases ho with
  | none => exact refl _
  | some hab =>
      rw [Option.mapM_some, Option.mapM_some]
      exact (hf _ _ hab).bindEq fun _ => refl _

/-- Computations that reproduce each other have **the same result**, or none. -/
theorem ok_iff {x y : Checked α} (h : Refines Eq x y) (h' : Refines Eq y x) (a : α) :
    x = .ok a ↔ y = .ok a := by
  constructor
  · intro ha
    obtain ⟨_, hb, rfl⟩ := h a ha
    exact hb
  · intro ha
    obtain ⟨_, hb, rfl⟩ := h' a ha
    exact hb

end Refines

end RegisterMap
