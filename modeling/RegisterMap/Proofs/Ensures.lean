import RegisterMap.Document.Problem
import RegisterMap.Proofs.Related

/-!
# What a Checked Computation Ensures

Readers and resolvers stop at the first problem. `Ensures x P` is partial correctness for them: if
`x` has a result, then `P` holds of it. `FailsWith P x` is the other side: if `x` stops, then `P`
holds of the problem. The rules follow the way such computations are written, so that a proof about
a reader has the reader's own shape.

## Main results

* `bind_eq_ok_iff`, `mapM_eq_ok_iff` — when a computation followed by another, and a loop over a
  list, have a result.
* `foldlM_eq_ok_iff` — a loop that reads something and adds it, as reading first and adding then.
* `Ensures.bind` — a computation followed by another.
* `Ensures.mapM`, `Ensures.foldlM` — the loops over lists, the second with an invariant.
* `FailsWith.bind`, `FailsWith.mapM` — what a computation in two steps and a loop may fail with.
-/

namespace RegisterMap

variable {ε α β : Type}

/-! ### Results -/

/-- A computation that has this result is its result. -/
theorem eq_ok_of_toOption {x : Checked α} {a : α} (h : x.toOption = some a) : x = .ok a := by
  cases x with
  | error e => nomatch h
  | ok b => exact congrArg Except.ok (Option.some.inj h)

/-- A failure is no result. -/
theorem failAt_ne_ok {path : String} {problem : Problem} {a : α} : failAt path problem ≠ .ok a :=
  nofun

/-- A computation followed by another has a result if both have one. -/
theorem bind_eq_ok_iff {x : Except ε α} {f : α → Except ε β} {b : β} :
    x >>= f = .ok b ↔ ∃ a, x = .ok a ∧ f a = .ok b := by
  cases x with
  | error e => simp [bind, Except.bind]
  | ok a => simp [bind, Except.bind]

/-- A computation that only returns has the result that it returns. -/
theorem pure_eq_ok_iff {a b : α} : (pure a : Except ε α) = .ok b ↔ a = b := by
  simp [pure, Except.pure]

/-- What only returns something at the end has a result if what comes before has one. -/
theorem exists_bind_pure_iff {x : Except ε α} {f : α → β} :
    (∃ b, (x >>= fun a => pure (f a)) = .ok b) ↔ ∃ a, x = .ok a := by
  simp only [bind_eq_ok_iff, pure_eq_ok_iff]
  constructor
  · rintro ⟨_, a, ha, -⟩
    exact ⟨a, ha⟩
  · rintro ⟨a, ha⟩
    exact ⟨_, a, ha, rfl⟩

/-- A loop over a list has results if every turn has one. -/
theorem mapM_eq_ok_iff {f : α → Except ε β} {items : List α} {bs : List β} :
    items.mapM f = .ok bs ↔ List.Forall₂ (fun a b => f a = .ok b) items bs := by
  induction items generalizing bs with
  | nil =>
      rw [List.mapM_nil, List.forall₂_nil_left_iff]
      exact pure_eq_ok_iff.trans eq_comm
  | cons a items ih =>
      simp only [List.mapM_cons, bind_eq_ok_iff, pure_eq_ok_iff, ih, List.forall₂_cons_left_iff]
      constructor
      · rintro ⟨b, hb, bs', hbs, rfl⟩
        exact ⟨b, bs', hb, hbs, rfl⟩
      · rintro ⟨b, bs', hb, hbs, rfl⟩
        exact ⟨b, hb, bs', hbs, rfl⟩

/-- A loop over a list has results if every turn has one, whatever it is. -/
theorem exists_mapM_eq_ok {f : α → Checked β} {items : List α}
    (h : ∀ a ∈ items, ∃ b, f a = .ok b) : ∃ bs, items.mapM f = .ok bs := by
  induction items with
  | nil => exact ⟨[], rfl⟩
  | cons a items ih =>
      obtain ⟨⟨b, hb⟩, hitems⟩ := List.forall_mem_cons.mp h
      obtain ⟨bs, hbs⟩ := ih hitems
      exact ⟨b :: bs, mapM_eq_ok_iff.mpr (.cons hb (mapM_eq_ok_iff.mp hbs))⟩

/-- A loop that reads in each turn and **adds what it has read**, as long as the state stays good,
can as well read everything first. -/
theorem foldlM_eq_ok_iff {σ : Type} {Good : σ → Prop} {read : α → Checked β} {add : σ → β → σ}
    {step : σ → α → Checked σ} (hadd : ∀ s b, Good (add s b) → Good s)
    (hstep : ∀ s a s', Good s →
      (step s a = .ok s' ↔ ∃ b, read a = .ok b ∧ Good (add s b) ∧ s' = add s b))
    {items : List α} {s s' : σ} (hs : Good s) :
    items.foldlM step s = .ok s' ↔
      ∃ bs, items.mapM read = .ok bs ∧ Good (bs.foldl add s) ∧ s' = bs.foldl add s := by
  have hgood (bs : List β) (s : σ) (h : Good (bs.foldl add s)) : Good s := by
    induction bs generalizing s with
    | nil => exact h
    | cons b bs ih => exact hadd s b (ih _ h)
  induction items generalizing s with
  | nil =>
      rw [List.foldlM_nil, List.mapM_nil, pure_eq_ok_iff]
      simp only [pure_eq_ok_iff, exists_eq_left', List.foldl_nil, hs, true_and]
      exact eq_comm
  | cons a items ih =>
      simp only [List.foldlM_cons, List.mapM_cons, bind_eq_ok_iff, pure_eq_ok_iff, hstep s a _ hs]
      constructor
      · rintro ⟨_, ⟨b, hb, hgoodb, rfl⟩, h⟩
        obtain ⟨bs, hbs, h⟩ := (ih hgoodb).mp h
        exact ⟨b :: bs, ⟨b, hb, bs, hbs, rfl⟩, h⟩
      · rintro ⟨_, ⟨b, hb, bs, hbs, rfl⟩, h⟩
        have hgoodb : Good (add s b) := hgood bs _ h.1
        exact ⟨_, ⟨b, hb, hgoodb, rfl⟩, (ih hgoodb).mpr ⟨bs, hbs, h⟩⟩

/-! ### Partial correctness -/

/-- **Ensures.** If there is a result, then `P` holds of it. -/
def Ensures (x : Checked α) (P : α → Prop) : Prop := ∀ a, x = .ok a → P a

namespace Ensures

variable {P Q : α → Prop} {R : β → Prop} {x : Checked α}

/-- A computation ensures that it has the result that it has. -/
theorem self (x : Checked α) : Ensures x fun a => x = .ok a := fun _ h => h

/-- What holds of a result is ensured of it. -/
theorem ok {a : α} (h : P a) : Ensures (.ok a) P := by
  rintro _ ⟨⟩
  exact h

/-- A failure ensures anything. -/
theorem failAt (path : String) (problem : Problem) : Ensures (RegisterMap.failAt path problem) P :=
  fun _ h => nomatch h

/-- What follows from a property is ensured with it. -/
theorem imp (hx : Ensures x P) (h : ∀ a, P a → Q a) : Ensures x Q := fun a ha => h a (hx a ha)

/-- What follows may rely on what came before. -/
theorem bind {f : α → Checked β} (hx : Ensures x P) (hf : ∀ a, P a → Ensures (f a) R) :
    Ensures (x >>= f) R := by
  cases x with
  | error e => exact fun _ h => nomatch h
  | ok a => exact hf a (hx a rfl)

/-- What follows ensures the result alone. -/
theorem after {f : α → Checked β} (hf : ∀ a, Ensures (f a) R) : Ensures (x >>= f) R :=
  (self x).bind fun a _ => hf a

/-- What comes behind a check may rely on it. -/
theorem check {c : Prop} [Decidable c] {path : String} {problem : Problem}
    {k : Unit → Checked α} (h : ¬ c → Ensures (k ()) P) :
    Ensures (if c then RegisterMap.failAt path problem >>= k else k ()) P := by
  by_cases hc : c
  · rw [if_pos hc]
    exact Ensures.bind (P := fun _ => False) (failAt path problem) fun _ h => h.elim
  · rw [if_neg hc]
    exact h hc

/-- Every result of a list was ensured. -/
theorem mapM {f : α → Checked β} {items : List α} (h : ∀ a ∈ items, Ensures (f a) R) :
    Ensures (items.mapM f) fun bs => ∀ b ∈ bs, R b := by
  induction items with
  | nil => exact ok (by simp)
  | cons a items ih =>
      rw [List.mapM_cons]
      refine (h a List.mem_cons_self).bind fun b hb => ?_
      refine (ih fun a' ha' => h a' (List.mem_cons_of_mem a ha')).bind fun bs hbs => ok ?_
      exact List.forall_mem_cons.mpr ⟨hb, hbs⟩

/-- A loop keeps its invariant. -/
theorem foldlM {f : β → α → Checked β} {items : List α} {init : β} (hinit : R init)
    (h : ∀ b a, R b → Ensures (f b a) R) : Ensures (items.foldlM f init) R := by
  induction items generalizing init with
  | nil => exact ok hinit
  | cons a items ih =>
      rw [List.foldlM_cons]
      exact (h init a hinit).bind fun b hb => ih hb

end Ensures

/-! ### Failures -/

/-- **Fails with.** If there is a problem, then `P` holds of it. -/
def FailsWith (P : Problem → Prop) (x : Checked α) : Prop := ∀ e, x = .error e → P e.problem

namespace FailsWith

variable {P : Problem → Prop}

/-- A result is no failure. -/
theorem ok (a : α) : FailsWith P (.ok a : Checked α) := fun _ h => nomatch h

/-- A failure is with **its own problem**. -/
theorem failAt {path : String} {problem : Problem} (h : P problem) :
    FailsWith P (RegisterMap.failAt path problem : Checked α) := by
  rintro _ ⟨⟩
  exact h

/-- A computation in two steps fails in **one of them**. -/
theorem bind {x : Checked α} {f : α → Checked β} (hx : FailsWith P x)
    (hf : ∀ a, x = .ok a → FailsWith P (f a)) : FailsWith P (x >>= f) := by
  cases x with
  | error e =>
      rintro _ ⟨⟩
      exact hx e rfl
  | ok a => exact hf a rfl

/-- A check fails with its own problem, or else what comes behind it fails. -/
theorem check {c : Prop} [Decidable c] {path : String} {problem : Problem}
    {k : Unit → Checked α} (hproblem : P problem) (h : FailsWith P (k ())) :
    FailsWith P (if c then RegisterMap.failAt path problem >>= k else k ()) := by
  by_cases hc : c
  · rw [if_pos hc]
    exact (failAt hproblem).bind fun _ h => nomatch h
  · rw [if_neg hc]
    exact h

/-- A loop over a list fails in **one of its turns**. -/
theorem mapM {f : α → Checked β} {items : List α} (h : ∀ a ∈ items, FailsWith P (f a)) :
    FailsWith P (items.mapM f) := by
  induction items with
  | nil => exact ok []
  | cons a items ih =>
      obtain ⟨ha, hitems⟩ := List.forall_mem_cons.mp h
      rw [List.mapM_cons]
      exact ha.bind fun b _ => (ih hitems).bind fun bs _ => ok (b :: bs)

end FailsWith

end RegisterMap
