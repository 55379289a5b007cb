import Mathlib.Data.List.Forall2
import Mathlib.Data.List.Nodup

/-!
# Exact Listings

A list of reports is exact when it reports everything that there is to report, nothing else, and
nothing twice. `Lists R l` says so for a relation `R` between the things to be reported, which are
identified by an index, and what the list holds about them. The index tells two reports apart that
look alike, such as the reports on two repetitions of one name.

## Main results

* `Lists.eq_nil_iff`: an exact listing is empty exactly when there is nothing to list.
* `Lists.positions`: every list lists its own items by position.
* `Lists.filter`, `Lists.map`, `Lists.flatMap`, `Lists.append`: a walk that filters, maps, descends
  and concatenates exact listings yields an exact listing.
* `Lists.append_rank`: checks that are about different things may be run one after the other.
* `Lists.reindex`: the index may be replaced by any other one that tells the same things apart.
-/

namespace RegisterMap

variable {ι κ α β : Type}

/-- **Exact listing.** The items of `l` are, one for one and each about its own index, what `R`
relates to the indices. -/
def Lists (R : ι → α → Prop) (l : List α) : Prop :=
  ∃ is : List ι, is.Nodup ∧ (∀ i, i ∈ is ↔ ∃ a, R i a) ∧ List.Forall₂ R is l

namespace Lists

variable {R : ι → α → Prop} {S : κ → β → Prop} {l : List α}

/-- The empty list lists nothing. -/
theorem nil (h : ∀ i a, ¬ R i a) : Lists R [] := by
  refine ⟨[], List.nodup_nil, fun i => ?_, List.Forall₂.nil⟩
  simp only [List.not_mem_nil, false_iff, not_exists]
  exact h i

/-- An item that is about the only index there is. -/
theorem singleton {i : ι} {a : α} (h : R i a) (unique : ∀ j b, R j b → j = i) :
    Lists R [a] := by
  refine ⟨[i], List.nodup_singleton i, fun j => ?_, List.Forall₂.cons h List.Forall₂.nil⟩
  rw [List.mem_singleton]
  constructor
  · rintro rfl
    exact ⟨a, h⟩
  · rintro ⟨b, hb⟩
    exact unique j b hb

/-- Every listed item is related to some index. -/
theorem exists_index (h : Lists R l) {a : α} (ha : a ∈ l) : ∃ i, R i a := by
  obtain ⟨is, -, -, hl⟩ := h
  obtain ⟨n, hn, rfl⟩ := List.getElem_of_mem ha
  have hlen := hl.length_eq
  exact ⟨is.get ⟨n, by omega⟩, hl.get (by omega) hn⟩

/-- Every index that is related to something has an item. -/
theorem exists_item (h : Lists R l) {i : ι} {a : α} (ha : R i a) : ∃ b ∈ l, R i b := by
  obtain ⟨is, -, mem, hl⟩ := h
  obtain ⟨n, hn, rfl⟩ := List.getElem_of_mem ((mem i).mpr ⟨a, ha⟩)
  have hlen := hl.length_eq
  exact ⟨l.get ⟨n, by omega⟩, List.get_mem l _, hl.get hn (by omega)⟩

/-- **Nothing to list**: the listing is empty exactly when no index is related to anything. -/
theorem eq_nil_iff (h : Lists R l) : l = [] ↔ ∀ i a, ¬ R i a := by
  constructor
  · rintro rfl i a ha
    obtain ⟨b, hb, -⟩ := h.exists_item ha
    exact List.not_mem_nil hb
  · intro hR
    refine List.eq_nil_iff_forall_not_mem.mpr fun a ha => ?_
    obtain ⟨i, hi⟩ := h.exists_index ha
    exact hR i a hi

/-- The relation may be replaced by an equivalent one. -/
theorem congr {T : ι → α → Prop} (h : Lists R l) (hT : ∀ i a, T i a ↔ R i a) : Lists T l := by
  obtain rfl : T = R := by
    funext i a
    exact propext (hT i a)
  exact h

/-- **Positions**: a list lists its own items. -/
theorem positions (l : List α) : Lists (fun (n : ℕ) a => l[n]? = some a) l := by
  refine ⟨List.range l.length, List.nodup_range, fun n => ?_, ?_⟩
  · rw [List.mem_range]
    constructor
    · intro hn
      exact ⟨l[n], List.getElem?_eq_getElem hn⟩
    · rintro ⟨a, ha⟩
      exact (List.getElem?_eq_some_iff.mp ha).1
  · refine List.forall₂_iff_get.mpr ⟨List.length_range, fun n h₁ h₂ => ?_⟩
    simp only [List.get_eq_getElem, List.getElem_range]
    exact List.getElem?_eq_getElem h₂

/-- Only one item is at a position. -/
theorem position_functional {l : List α} (n : ℕ) (a b : α) (ha : l[n]? = some a)
    (hb : l[n]? = some b) : a = b :=
  Option.some.inj (ha.symm.trans hb)

/-- **Change of index.** The new index `c i` has to tell the listed things apart. -/
theorem reindex {T : κ → α → Prop} (c : ι → κ) (h : Lists R l)
    (inj : ∀ i j a b, R i a → R j b → c i = c j → i = j)
    (hT : ∀ k a, T k a ↔ ∃ i, c i = k ∧ R i a) : Lists T l := by
  obtain ⟨is, nodup, mem, hl⟩ := h
  refine ⟨is.map c, ?_, fun k => ?_, ?_⟩
  · refine List.Nodup.map_on (fun i hi j hj hc => ?_) nodup
    obtain ⟨a, ha⟩ := (mem i).mp hi
    obtain ⟨b, hb⟩ := (mem j).mp hj
    exact inj i j a b ha hb hc
  · rw [List.mem_map]
    constructor
    · rintro ⟨i, hi, rfl⟩
      obtain ⟨a, ha⟩ := (mem i).mp hi
      exact ⟨a, (hT _ _).mpr ⟨i, rfl, ha⟩⟩
    · rintro ⟨a, ha⟩
      obtain ⟨i, rfl, hi⟩ := (hT _ _).mp ha
      exact ⟨i, (mem i).mpr ⟨a, hi⟩, rfl⟩
  · refine List.forall₂_map_left_iff.mpr (hl.imp fun i a hi => ?_)
    exact (hT _ _).mpr ⟨i, rfl, hi⟩

/-- **Mapped items**: `f` turns what is listed about an index into another thing about it. -/
theorem map {T : ι → β → Prop} (f : α → β) (h : Lists R l) (hf : ∀ i a, R i a → T i (f a))
    (hT : ∀ i b, T i b → ∃ a, R i a) : Lists T (l.map f) := by
  obtain ⟨is, nodup, mem, hl⟩ := h
  refine ⟨is, nodup, fun i => ?_, List.forall₂_map_right_iff.mpr (hl.imp hf)⟩
  rw [mem]
  constructor
  · rintro ⟨a, ha⟩
    exact ⟨f a, hf i a ha⟩
  · rintro ⟨b, hb⟩
    exact hT i b hb

/-- **Concatenation** of listings that are never about the same index. -/
theorem append {T : ι → α → Prop} {l' : List α} (h : Lists R l) (h' : Lists T l')
    (apart : ∀ i a b, R i a → ¬ T i b) : Lists (fun i a => R i a ∨ T i a) (l ++ l') := by
  obtain ⟨is, nodup, mem, hl⟩ := h
  obtain ⟨js, nodup', mem', hl'⟩ := h'
  refine ⟨is ++ js, nodup.append nodup' fun i hi hj => ?_, fun i => ?_, ?_⟩
  · obtain ⟨a, ha⟩ := (mem i).mp hi
    obtain ⟨b, hb⟩ := (mem' i).mp hj
    exact apart i a b ha hb
  · rw [List.mem_append, mem, mem', ← exists_or]
  · exact List.rel_append (hl.imp fun _ _ => Or.inl) (hl'.imp fun _ _ => Or.inr)

/-- A walk over a listing, item by item; `is` holds the indices of the items. -/
private theorem flatMap_of_forall₂ {S : α → κ → β → Prop} {g : α → List β} {is : List ι}
    (hg : ∀ i a, R i a → Lists (S a) (g a)) (functional : ∀ i a b, R i a → R i b → a = b)
    (nodup : is.Nodup) (hl : List.Forall₂ R is l) :
    ∃ ps : List (ι × κ), ps.Nodup ∧
      (∀ p, p ∈ ps ↔ p.1 ∈ is ∧ ∃ b a, R p.1 a ∧ S a p.2 b) ∧
      List.Forall₂ (fun p b => ∃ a, R p.1 a ∧ S a p.2 b) ps (l.flatMap g) := by
  induction hl with
  | nil => exact ⟨[], List.nodup_nil, by simp, List.Forall₂.nil⟩
  | @cons i a is l hi hl ih =>
      obtain ⟨hnew, nodup⟩ := List.nodup_cons.mp nodup
      obtain ⟨ps, hps, mem, hf⟩ := ih nodup
      obtain ⟨ks, hks, memk, hk⟩ := hg i a hi
      refine ⟨ks.map (i, ·) ++ ps, ?_, fun p => ?_, ?_⟩
      · refine List.Nodup.append (hks.map fun _ _ h => (Prod.mk.inj h).2) hps ?_
        rintro p hp hp'
        obtain ⟨k, -, rfl⟩ := List.mem_map.mp hp
        exact hnew ((mem _).mp hp').1
      · rw [List.mem_append, mem, List.mem_map]
        constructor
        · rintro (⟨k, hk, rfl⟩ | ⟨hp, h⟩)
          · obtain ⟨b, hb⟩ := (memk k).mp hk
            exact ⟨List.mem_cons_self, b, a, hi, hb⟩
          · exact ⟨List.mem_cons_of_mem i hp, h⟩
        · rintro ⟨hp, b, a', ha', hb⟩
          rcases List.mem_cons.mp hp with heq | hp
          · obtain ⟨j, k⟩ := p
            obtain rfl : j = i := heq
            obtain rfl := functional j a' a ha' hi
            exact Or.inl ⟨k, (memk k).mpr ⟨b, hb⟩, rfl⟩
          · exact Or.inr ⟨hp, b, a', ha', hb⟩
      · rw [List.flatMap_cons]
        refine List.rel_append (List.forall₂_map_left_iff.mpr (hk.imp fun k b hb => ?_)) hf
        exact ⟨a, hi, hb⟩

/-- **Descent**: where `l` lists items and `g` what is to be listed about each of them, the walk
lists it all, by the index of the item and the index within it. -/
theorem flatMap {S : α → κ → β → Prop} {g : α → List β} (h : Lists R l)
    (functional : ∀ i a b, R i a → R i b → a = b) (hg : ∀ i a, R i a → Lists (S a) (g a)) :
    Lists (fun (p : ι × κ) b => ∃ a, R p.1 a ∧ S a p.2 b) (l.flatMap g) := by
  obtain ⟨is, nodup, mem, hl⟩ := h
  obtain ⟨ps, hps, memp, hf⟩ := flatMap_of_forall₂ hg functional nodup hl
  refine ⟨ps, hps, fun p => ?_, hf⟩
  rw [memp, mem]
  constructor
  · exact fun ⟨_, h⟩ => h
  · rintro ⟨b, a, ha, hb⟩
    exact ⟨⟨a, ha⟩, b, a, ha, hb⟩

/-- A descent that yields at most one thing about each item needs no second index. -/
theorem flatMap_optional {S : α → β → Prop} {g : α → List β} (h : Lists R l)
    (functional : ∀ i a b, R i a → R i b → a = b)
    (hg : ∀ i a, R i a → (∃ b, g a = [b] ∧ S a b) ∨ g a = [] ∧ ∀ b, ¬ S a b) :
    Lists (fun i b => ∃ a, R i a ∧ S a b) (l.flatMap g) := by
  refine (h.flatMap (S := fun a (_ : Unit) b => S a b) functional fun i a ha => ?_).reindex Prod.fst
    (fun p q _ _ _ _ hpq => Prod.ext hpq rfl) fun i b => ?_
  · rcases hg i a ha with ⟨b, hb, hS⟩ | ⟨hnil, hS⟩
    · rw [hb]
      exact singleton (i := ()) hS fun _ _ _ => rfl
    · rw [hnil]
      exact nil fun _ b => hS b
  · constructor
    · rintro ⟨a, ha, hb⟩
      exact ⟨(i, ()), rfl, a, ha, hb⟩
    · rintro ⟨p, rfl, hp⟩
      exact hp

/-- **Filtered items**. -/
theorem filter (p : α → Bool) (h : Lists R l) (functional : ∀ i a b, R i a → R i b → a = b) :
    Lists (fun i a => R i a ∧ p a = true) (l.filter p) := by
  have hwalk : ∀ l : List α, l.filter p = l.flatMap fun a => if p a then [a] else [] := by
    intro l
    induction l with
    | nil => rfl
    | cons a l ih => cases hp : p a <;> simp [hp, ih]
  rw [hwalk]
  refine (h.flatMap_optional (S := fun a b => b = a ∧ p a = true) functional
    fun i a _ => ?_).congr fun i a => ?_
  · split
    · next hp => exact Or.inl ⟨a, rfl, rfl, hp⟩
    · next hp => exact Or.inr ⟨rfl, fun _ hb => hp hb.2⟩
  · constructor
    · rintro ⟨ha, hp⟩
      exact ⟨a, ha, rfl, hp⟩
    · rintro ⟨b, hb, rfl, hp⟩
      exact ⟨hb, hp⟩

/-! ### Positions from the front -/

/-- Nothing is to be listed about the first position. -/
theorem shift {R : ℕ → α → Prop} (h : Lists (fun n => R (n + 1)) l) (first : ∀ a, ¬ R 0 a) :
    Lists R l := by
  refine h.reindex Nat.succ (fun m n _ _ _ _ hmn => Nat.succ.inj hmn) fun n a => ?_
  cases n with
  | zero => simpa using first a
  | succ n => simp

/-- The first item of the list is about the first position. -/
theorem cons {R : ℕ → α → Prop} {a : α} (h : Lists (fun n => R (n + 1)) l) (first : R 0 a) :
    Lists R (a :: l) := by
  have hfirst : Lists (fun n b => n = 0 ∧ R n b) [a] :=
    singleton ⟨rfl, first⟩ fun _ _ hn => hn.1
  have hrest : Lists (fun n b => n ≠ 0 ∧ R n b) l :=
    (h.congr (T := fun n b => n + 1 ≠ 0 ∧ R (n + 1) b) (by simp)).shift (by simp)
  refine (hfirst.append hrest fun n b c hb hc => hc.1 hb.1).congr fun n b => ?_
  rw [← or_and_right]
  simp [Decidable.em]

/-! ### Lists that are made one after the other -/

/-- A listing by `c`, whose values are the indices with the number `k`. -/
theorem ranked {T : κ → α → Prop} (rank : κ → ℕ) {k : ℕ} (c : ι → κ)
    (h : Lists (fun i => T (c i)) l) (inj : Function.Injective c)
    (range : ∀ j, rank j = k ↔ ∃ i, c i = j) : Lists (fun j a => rank j = k ∧ T j a) l := by
  refine h.reindex c (fun i j _ _ _ _ hij => inj hij) fun j a => ?_
  rw [range]
  constructor
  · rintro ⟨⟨i, rfl⟩, ha⟩
    exact ⟨i, rfl, ha⟩
  · rintro ⟨i, rfl, ha⟩
    exact ⟨⟨i, rfl⟩, ha⟩

/-- **One check after the other**: `rank` numbers the lists, and each is about the indices of its
own number. -/
theorem append_rank (rank : ι → ℕ) {k : ℕ} {l' : List α}
    (h : Lists (fun i a => rank i < k ∧ R i a) l)
    (h' : Lists (fun i a => rank i = k ∧ R i a) l') :
    Lists (fun i a => rank i < k + 1 ∧ R i a) (l ++ l') := by
  refine (h.append h' fun i a b ha hb => ?_).congr fun i a => ?_
  · have := ha.1
    have := hb.1
    omega
  · rw [← or_and_right, Nat.lt_succ_iff, Nat.le_iff_lt_or_eq]

end Lists

end RegisterMap
