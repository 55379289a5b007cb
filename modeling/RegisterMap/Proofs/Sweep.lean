import Mathlib.Order.CompletePartialOrder
import Mathlib.Order.Interval.Set.Disjoint
import RegisterMap.Proofs.Listing
import RegisterMap.Verify.Checks

/-!
# The Sweep over Intervals

`Interval.overlappingPairs` forgets an interval as soon as a later one starts at its end or behind
it. This module proves that nothing is lost by that: the sweep finds every pair of intervals that
have a point in common, and each such pair once.

## Sweep order

The intervals are taken in the order of their starts, then of their ends, and intervals that agree
in both in the order of the list, because merge sort is stable. `Interval.Precedes` is this order on
intervals with their positions. It decides which interval of a pair is the earlier one.

## Main results

* `pairwise_mergeSort_ties`: merge sort keeps the order of elements that compare equal.
* `Interval.lists_sweep`: what a sweep over sorted intervals lists.
* `Interval.lists_overlappingPairs`: **exactness** of the sweep on any list of intervals.
* `lists_overlapping`: the same for items with a start and an end.
-/

namespace RegisterMap

variable {α : Type}

/-! ### Stability -/

/-- **Stability.** Of two elements that compare equal, merge sort leaves the one in front that was
in front; `P` is whatever holds of elements in the order of the list. -/
theorem pairwise_mergeSort_ties {le : α → α → Bool} {P : α → α → Prop} {l : List α}
    (trans : ∀ a b c, le a b = true → le b c = true → le a c = true)
    (total : ∀ a b, (le a b || le b a) = true) (h : l.Pairwise P) :
    (l.mergeSort le).Pairwise fun a b => le a b = true ∧ (le b a = true → P a b) := by
  refine List.pairwise_iff_forall_sublist.mpr fun {a b} hab => ?_
  have hle : le a b = true :=
    List.pairwise_iff_forall_sublist.mp (List.pairwise_mergeSort trans total l) hab
  refine ⟨hle, fun hba => ?_⟩
  -- The elements that tie with `a` are a sorted sublist, which the sort leaves as it is.
  let tie : α → Bool := fun c => le a c && le c a
  have hties : l.filter tie = (l.mergeSort le).filter tie := by
    have hsorted : (l.filter tie).Pairwise fun c d => le c d = true := by
      refine List.pairwise_of_forall_mem_list fun c hc d hd => ?_
      simp only [List.mem_filter, tie, Bool.and_eq_true] at hc hd
      exact trans c a d hc.2.2 hd.2.1
    have hsub : (l.filter tie).Sublist ((l.mergeSort le).filter tie) := by
      have := (List.sublist_mergeSort trans total hsorted List.filter_sublist).filter tie
      rwa [List.filter_filter, List.filter_congr fun c _ => Bool.and_self (tie c)] at this
    exact hsub.eq_of_length ((List.mergeSort_perm l le).filter tie).length_eq.symm
  have ha : tie a = true := by simpa [tie] using total a a
  have hb : tie b = true := by simp [tie, hle, hba]
  have hpair : [a, b].Sublist (l.filter tie) := by
    have := hab.filter tie
    rw [hties]
    simpa [List.filter_cons, ha, hb] using this
  exact List.pairwise_iff_forall_sublist.mp h (hpair.trans List.filter_sublist)

namespace Interval

/-! ### Points and order -/

/-- The **points** of an interval. -/
def points (i : Interval α) : Set ℕ := Set.Ico i.start.toNat i.stop.toNat

/-- Two intervals with a point in common have points, and each starts before the other ends. -/
theorem not_disjoint_points_iff (a b : Interval α) :
    ¬ Disjoint a.points b.points ↔
      a.nonempty = true ∧ b.nonempty = true ∧ a.start < b.stop ∧ b.start < a.stop := by
  simp only [points, Set.Ico_disjoint_Ico, nonempty, decide_eq_true_eq, UInt64.lt_iff_toNat_lt]
  omega

/-- **Sweep order** of intervals with their positions: by start, then by end, then by position. -/
def Precedes (p q : Interval α × ℕ) : Prop :=
  p.1.start < q.1.start ∨
    p.1.start = q.1.start ∧ (p.1.stop < q.1.stop ∨ p.1.stop = q.1.stop ∧ p.2 < q.2)

/-- Of two intervals at different positions, only one precedes the other. -/
theorem Precedes.asymm {p q : Interval α × ℕ} (h : Precedes p q) : ¬ Precedes q p := by
  simp only [Precedes, UInt64.lt_iff_toNat_lt, ← UInt64.toNat_inj] at h ⊢
  omega

/-- Of two intervals at different positions one precedes the other. -/
theorem precedes_or_precedes {p q : Interval α × ℕ} (h : p.2 ≠ q.2) :
    Precedes p q ∨ Precedes q p := by
  simp only [Precedes, UInt64.lt_iff_toNat_lt, ← UInt64.toNat_inj]
  omega

/-- Intervals are compared by their starts, and by their ends **where they start at one point**. -/
theorem before_iff (a b : Interval α) :
    before a b = true ↔ a.start < b.start ∨ a.start = b.start ∧ a.stop ≤ b.stop := by
  simp [before]

/-- The comparison is transitive. -/
theorem before_trans (a b c : Interval α) (hab : before a b = true) (hbc : before b c = true) :
    before a c = true := by
  simp only [before_iff, UInt64.lt_iff_toNat_lt, UInt64.le_iff_toNat_le, ← UInt64.toNat_inj]
    at hab hbc ⊢
  omega

/-- It is total. -/
theorem before_total (a b : Interval α) : (before a b || before b a) = true := by
  simp only [Bool.or_eq_true, before_iff, UInt64.lt_iff_toNat_lt, UInt64.le_iff_toNat_le,
    ← UInt64.toNat_inj]
  omega

/-! ### Sorting with positions -/

/-- The intervals that have points, in **sweep order**, each with its position in the list. -/
def sweepOrder (intervals : List (Interval α)) : List (Interval α × ℕ) :=
  (intervals.zipIdx.filter (·.1.nonempty)).mergeSort fun p q => before p.1 q.1

/-- Without the positions, this is what is swept. -/
theorem map_fst_sweepOrder (intervals : List (Interval α)) :
    (sweepOrder intervals).map Prod.fst = (intervals.filter (·.nonempty)).mergeSort before := by
  have hfst : (intervals.zipIdx.filter (·.1.nonempty)).map Prod.fst =
      intervals.filter (·.nonempty) := by
    have h := List.filter_map (f := Prod.fst) (p := nonempty) (l := intervals.zipIdx)
    rwa [List.zipIdx_map_fst, eq_comm] at h
  rw [sweepOrder, List.map_mergeSort (s := before) fun _ _ _ _ => rfl, hfst]

/-- What is swept are the intervals of the list **that are not empty**, at their positions. -/
theorem mem_sweepOrder {intervals : List (Interval α)} {p : Interval α × ℕ} :
    p ∈ sweepOrder intervals ↔ intervals[p.2]? = some p.1 ∧ p.1.nonempty = true := by
  rw [sweepOrder, List.mem_mergeSort, List.mem_filter, List.mem_zipIdx_iff_getElem?]

/-- They are swept in order, those that are equal in **the order of the list**. -/
theorem pairwise_sweepOrder (intervals : List (Interval α)) :
    (sweepOrder intervals).Pairwise Precedes := by
  have hpos : (intervals.zipIdx.filter (·.1.nonempty)).Pairwise fun p q => p.2 < q.2 := by
    refine List.Pairwise.filter _ (List.pairwise_map.mp ?_)
    rw [List.zipIdx_map_snd]
    exact List.pairwise_lt_range'
  refine (pairwise_mergeSort_ties (fun p q r => before_trans p.1 q.1 r.1)
    (fun p q => before_total p.1 q.1) hpos).imp fun {p q} h => ?_
  simp only [before_iff, Precedes, UInt64.lt_iff_toNat_lt, UInt64.le_iff_toNat_le,
    ← UInt64.toNat_inj] at h ⊢
  omega

/-- The positions in sweep order are all different. -/
theorem nodup_sweepOrder (intervals : List (Interval α)) :
    ((sweepOrder intervals).map Prod.snd).Nodup := by
  refine List.pairwise_map.mpr ((pairwise_sweepOrder intervals).imp_of_mem ?_)
  intro p q hp hq hpq heq
  have hval : some p.1 = some q.1 := by
    rw [← (mem_sweepOrder.mp hp).1, ← (mem_sweepOrder.mp hq).1, heq]
  obtain rfl : p = q := Prod.ext (Option.some.inj hval) heq
  exact hpq.asymm hpq

/-- A position of the list occurs once in sweep order. -/
theorem position_injective {intervals : List (Interval α)} {x y : ℕ} {p q : Interval α × ℕ}
    (hx : (sweepOrder intervals)[x]? = some p) (hy : (sweepOrder intervals)[y]? = some q)
    (h : p.2 = q.2) : x = y := by
  obtain ⟨hlt, -⟩ := List.getElem?_eq_some_iff.mp hx
  refine (List.getElem?_inj (by simpa using hlt) (nodup_sweepOrder intervals)).mp ?_
  rw [List.getElem?_map, List.getElem?_map, hx, hy, Option.map_some, Option.map_some, h]

/-! ### The sweep -/

/-- What a sweep finds among `l`, by positions: two intervals of which the earlier one is still open
when the later one starts. -/
def OpenAt (l : List (Interval α)) (p : ℕ × ℕ) (q : α × α) : Prop :=
  ∃ a b, l[p.1]? = some a ∧ l[p.2]? = some b ∧ p.1 < p.2 ∧ b.start < a.stop ∧
    q = (a.label, b.label)

/-- The two intervals of an open pair, with their positions. -/
theorem OpenAt.items {t : List (Interval α × ℕ)} {x y : ℕ} {labels : α × α}
    (h : OpenAt (t.map Prod.fst) (x, y) labels) :
    ∃ p q, t[x]? = some p ∧ t[y]? = some q := by
  obtain ⟨a, b, ha, hb, -⟩ := h
  rw [List.getElem?_map, Option.map_eq_some_iff] at ha hb
  obtain ⟨p, hp, -⟩ := ha
  obtain ⟨q, hq, -⟩ := hb
  exact ⟨p, q, hp, hq⟩

/-- **Forgetting is safe**: an interval that has ended before all starts to come makes no pair. -/
theorem sweep_filter (start : UInt64) (l active : List (Interval α))
    (h : ∀ b ∈ l, start ≤ b.start) :
    sweep (active.filter (start < ·.stop)) l = sweep active l := by
  induction l generalizing active with
  | nil => rfl
  | cons b rest ih =>
      have hfilter : (active.filter (start < ·.stop)).filter (b.start < ·.stop) =
          active.filter (b.start < ·.stop) := by
        rw [List.filter_filter]
        refine List.filter_congr fun a _ => ?_
        have hb := h b List.mem_cons_self
        simp only [UInt64.lt_iff_toNat_lt, UInt64.le_iff_toNat_le] at hb ⊢
        rw [Bool.and_eq_left_iff_imp]
        simp only [decide_eq_true_eq]
        omega
      simp only [sweep, hfilter]

/-- A step of the sweep pairs the interval that starts with the open ones, and goes on. -/
theorem sweep_cons {b : Interval α} {rest : List (Interval α)} (active : List (Interval α))
    (h : ∀ c ∈ rest, b.start ≤ c.start) :
    sweep active (b :: rest) =
      (active.filter (b.start < ·.stop)).map (fun a => (a.label, b.label)) ++
        sweep (active ++ [b]) rest := by
  rw [sweep]
  congr 1
  rw [← sweep_filter b.start rest (active.filter (b.start < ·.stop) ++ [b]) h,
    ← sweep_filter b.start rest (active ++ [b]) h]
  simp only [List.filter_append, List.filter_filter, Bool.and_self]

/-- The pairs whose later interval is `b`. -/
theorem lists_open (active rest : List (Interval α)) (b : Interval α) :
    Lists (fun p q => OpenAt (active ++ b :: rest) p q ∧ p.2 = active.length)
      ((active.filter (b.start < ·.stop)).map fun a => (a.label, b.label)) := by
  have hnow : (active ++ b :: rest)[active.length]? = some b := by simp
  have hopen := (Lists.positions active).filter (b.start < ·.stop) Lists.position_functional
  refine (hopen.map (T := fun n => OpenAt (active ++ b :: rest) (n, active.length)) _ ?_ ?_).reindex
    (fun n => (n, active.length)) (fun m n _ _ _ _ h => (Prod.mk.inj h).1) fun p q => ?_
  · rintro n a ⟨ha, hlt⟩
    obtain ⟨hn, -⟩ := List.getElem?_eq_some_iff.mp ha
    exact ⟨a, b, by rwa [List.getElem?_append_left hn], hnow, hn, by simpa using hlt, rfl⟩
  · rintro n q ⟨a, c, ha, hc, hn, hlt, -⟩
    obtain rfl := Lists.position_functional _ b c hnow hc
    rw [List.getElem?_append_left hn] at ha
    exact ⟨a, ha, by simpa using hlt⟩
  · constructor
    · rintro ⟨h, hp⟩
      exact ⟨p.1, Prod.ext rfl hp.symm, hp ▸ h⟩
    · rintro ⟨n, rfl, h⟩
      exact ⟨h, rfl⟩

/-- **The sweep lists the open pairs.** The intervals before `l` are those that the sweep went over
already, so only pairs whose later interval is in `l` are still to be listed. -/
theorem lists_sweep (l active : List (Interval α))
    (sorted : l.Pairwise fun a b => a.start ≤ b.start) :
    Lists (fun p q => OpenAt (active ++ l) p q ∧ active.length ≤ p.2) (sweep active l) := by
  induction l generalizing active with
  | nil =>
      refine Lists.nil ?_
      rintro p q ⟨⟨a, b, -, hb, -⟩, hle⟩
      rw [List.append_nil, List.getElem?_eq_none hle] at hb
      cases hb
  | cons b rest ih =>
      obtain ⟨hb, sorted⟩ := List.pairwise_cons.mp sorted
      rw [sweep_cons active hb]
      have hfirst := lists_open active rest b
      have hrest := ih (active ++ [b]) sorted
      rw [List.append_assoc, List.singleton_append] at hrest
      refine (hfirst.append hrest ?_).congr fun p q => ?_
      · rintro p q r ⟨-, hp⟩ ⟨-, hle⟩
        rw [List.length_append, List.length_singleton] at hle
        omega
      · rw [List.length_append, List.length_singleton, ← and_or_left]
        refine and_congr_right fun _ => ?_
        omega

/-! ### Exactness -/

/-- Two items at positions `p` of a list that **share a point**, the earlier one first. -/
structure SharedAt (intervals : List (Interval α)) (p : ℕ × ℕ) (a b : Interval α) : Prop where
  first : intervals[p.1]? = some a
  second : intervals[p.2]? = some b
  precedes : Precedes (a, p.1) (b, p.2)
  share : ¬ Disjoint a.points b.points

/-- In sweep order, an earlier interval is open when a later one starts exactly when the two share a
point. -/
theorem openAt_sweepOrder_iff {intervals : List (Interval α)} {x y : ℕ}
    {p q : Interval α × ℕ} (hx : (sweepOrder intervals)[x]? = some p)
    (hy : (sweepOrder intervals)[y]? = some q) (labels : α × α) :
    OpenAt ((sweepOrder intervals).map Prod.fst) (x, y) labels ↔
      SharedAt intervals (p.2, q.2) p.1 q.1 ∧ labels = (p.1.label, q.1.label) := by
  obtain ⟨hpos, hpne⟩ := mem_sweepOrder.mp (List.mem_of_getElem? hx)
  obtain ⟨hqos, hqne⟩ := mem_sweepOrder.mp (List.mem_of_getElem? hy)
  obtain ⟨hxlt, hxp⟩ := List.getElem?_eq_some_iff.mp hx
  obtain ⟨hylt, hyq⟩ := List.getElem?_eq_some_iff.mp hy
  have hordered := List.pairwise_iff_getElem.mp (pairwise_sweepOrder intervals)
  constructor
  · rintro ⟨a, b, ha, hb, hlt, hopen, rfl⟩
    rw [List.getElem?_map, hx] at ha
    rw [List.getElem?_map, hy] at hb
    obtain rfl : p.1 = a := Option.some.inj ha
    obtain rfl : q.1 = b := Option.some.inj hb
    have hprec : Precedes p q := by
      have := hordered x y hxlt hylt hlt
      rwa [hxp, hyq] at this
    refine ⟨⟨hpos, hqos, hprec, ?_⟩, rfl⟩
    rw [not_disjoint_points_iff]
    refine ⟨hpne, hqne, ?_, hopen⟩
    simp only [Precedes, nonempty, decide_eq_true_eq, UInt64.lt_iff_toNat_lt,
      ← UInt64.toNat_inj] at hprec hqne ⊢
    omega
  · rintro ⟨⟨-, -, hprec, hshare⟩, rfl⟩
    rw [not_disjoint_points_iff] at hshare
    refine ⟨p.1, q.1, by simp [hx], by simp [hy], ?_, hshare.2.2.2, rfl⟩
    rcases Nat.lt_trichotomy x y with hlt | heq | hgt
    · exact hlt
    · subst heq
      obtain rfl := Lists.position_functional _ p q hx hy
      exact absurd hprec hprec.asymm
    · have := hordered y x hylt hxlt hgt
      rw [hxp, hyq] at this
      exact absurd this hprec.asymm

/-- **Exactness of the sweep.** For any list of intervals, the pairs of the sweep are the pairs of
positions whose intervals share a point, each once and the earlier interval first. -/
theorem lists_overlappingPairs (intervals : List (Interval α)) :
    Lists (fun p q => ∃ a b, SharedAt intervals p a b ∧ q = (a.label, b.label))
      (overlappingPairs intervals) := by
  have hsorted : ((sweepOrder intervals).map Prod.fst).Pairwise fun a b => a.start ≤ b.start := by
    refine List.pairwise_map.mpr ((pairwise_sweepOrder intervals).imp fun {p q} h => ?_)
    simp only [Precedes, UInt64.lt_iff_toNat_lt, UInt64.le_iff_toNat_le, ← UInt64.toNat_inj] at h ⊢
    omega
  have hsweep := lists_sweep ((sweepOrder intervals).map Prod.fst) [] hsorted
  rw [List.nil_append] at hsweep
  rw [overlappingPairs, ← map_fst_sweepOrder]
  let position : ℕ → ℕ := fun x => (((sweepOrder intervals).map Prod.snd)[x]?).getD 0
  have hposition : ∀ {x p}, (sweepOrder intervals)[x]? = some p → position x = p.2 := by
    intro x p hx
    simp [position, hx]
  refine hsweep.reindex (fun p => (position p.1, position p.2)) ?_ fun p q => ?_
  · rintro ⟨x, y⟩ ⟨x', y'⟩ r r' ⟨hopen, -⟩ ⟨hopen', -⟩ heq
    obtain ⟨p, q, hx, hy⟩ := hopen.items
    obtain ⟨p', q', hx', hy'⟩ := hopen'.items
    simp only [Prod.mk.injEq, hposition hx, hposition hy, hposition hx', hposition hy'] at heq
    exact Prod.ext (position_injective hx hx' heq.1) (position_injective hy hy' heq.2)
  · constructor
    · rintro ⟨a, b, h, rfl⟩
      obtain ⟨ha, hb, -, -⟩ := (not_disjoint_points_iff a b).mp h.share
      obtain ⟨x, hx⟩ := List.getElem?_of_mem (mem_sweepOrder (p := (a, p.1)).mpr ⟨h.first, ha⟩)
      obtain ⟨y, hy⟩ := List.getElem?_of_mem (mem_sweepOrder (p := (b, p.2)).mpr ⟨h.second, hb⟩)
      refine ⟨(x, y), Prod.ext (hposition hx) (hposition hy), ?_, Nat.zero_le y⟩
      exact (openAt_sweepOrder_iff hx hy _).mpr ⟨h, rfl⟩
    · rintro ⟨⟨x, y⟩, rfl, hopen, -⟩
      obtain ⟨p, r, hx, hy⟩ := hopen.items
      obtain ⟨h, rfl⟩ := (openAt_sweepOrder_iff hx hy q).mp hopen
      simp only [hposition hx, hposition hy]
      exact ⟨p.1, r.1, h, rfl⟩

end Interval

/-! ### Items with a start and an end -/

/-- Items that are pairwise disjoint are so at any two positions. -/
theorem disjoint_of_pairwise {s : α → Set ℕ} {items : List α} {i j : ℕ} {a b : α}
    (h : items.Pairwise fun a b => Disjoint (s a) (s b)) (ha : items[i]? = some a)
    (hb : items[j]? = some b) (hne : i ≠ j) : Disjoint (s a) (s b) := by
  obtain ⟨hi, rfl⟩ := List.getElem?_eq_some_iff.mp ha
  obtain ⟨hj, rfl⟩ := List.getElem?_eq_some_iff.mp hb
  rw [List.pairwise_iff_getElem] at h
  rcases Nat.lt_or_gt_of_ne hne with hlt | hgt
  · exact h i j hi hj hlt
  · exact (h j i hj hi hgt).symm

section Items

variable (start stop : α → UInt64) (items : List α)

/-- The interval of an item. -/
def spanned (a : α) : Interval α := ⟨start a, stop a, a⟩

/-- A **clash**: two items, at positions `p`, whose intervals share a point; the first of them is
the one that precedes the other in sweep order. -/
structure Clash (p : ℕ × ℕ) (q : α × α) : Prop where
  first : items[p.1]? = some q.1
  second : items[p.2]? = some q.2
  precedes : Interval.Precedes (spanned start stop q.1, p.1) (spanned start stop q.2, p.2)
  share : ¬ Disjoint (spanned start stop q.1).points (spanned start stop q.2).points

/-- The check for overlaps lists the **clashes**, each once. -/
theorem lists_overlapping : Lists (Clash start stop items) (overlapping start stop items) := by
  refine (Interval.lists_overlappingPairs (items.map (spanned start stop))).congr fun p q => ?_
  constructor
  · intro h
    exact ⟨_, _, ⟨by simp [h.first], by simp [h.second], h.precedes, h.share⟩, rfl⟩
  · rintro ⟨a, b, ⟨hfirst, hsecond, hprec, hshare⟩, rfl⟩
    rw [List.getElem?_map, Option.map_eq_some_iff] at hfirst hsecond
    obtain ⟨a, ha, rfl⟩ := hfirst
    obtain ⟨b, hb, rfl⟩ := hsecond
    exact ⟨ha, hb, hprec, hshare⟩

/-- Without clashes the items are **pairwise disjoint**, and conversely. -/
theorem no_clash_iff :
    (∀ p q, ¬ Clash start stop items p q) ↔
      items.Pairwise fun a b =>
        Disjoint (spanned start stop a).points (spanned start stop b).points := by
  constructor
  · intro h
    refine List.pairwise_iff_getElem.mpr fun i j hi hj hlt => ?_
    by_contra hshare
    have hi' := List.getElem?_eq_getElem hi
    have hj' := List.getElem?_eq_getElem hj
    rcases Interval.precedes_or_precedes (p := (spanned start stop items[i], i))
        (q := (spanned start stop items[j], j)) (Nat.ne_of_lt hlt) with hprec | hprec
    · exact h (i, j) (items[i], items[j]) ⟨hi', hj', hprec, hshare⟩
    · exact h (j, i) (items[j], items[i]) ⟨hj', hi', hprec, fun hd => hshare hd.symm⟩
  · rintro h ⟨i, j⟩ ⟨a, b⟩ ⟨hfirst, hsecond, hprec, hshare⟩
    refine hshare (disjoint_of_pairwise (s := fun a => (spanned start stop a).points) h
      hfirst hsecond ?_)
    rintro (rfl : i = j)
    obtain rfl : a = b := Option.some.inj (hfirst.symm.trans hsecond)
    exact hprec.asymm hprec

end Items

end RegisterMap
