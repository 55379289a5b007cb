import Mathlib.Data.Multiset.AddSub
import Mathlib.Data.Sym.Sym2
import RegisterMap.Proofs.Sweep

/-!
# The Order of the Pairs

The sweep names each pair of overlapping intervals once, and it names them in an order of its own:
by the interval that starts later, and for one such interval by the other one. This module follows
the sweep with the positions of the intervals kept at hand, so that the order and the number of
reports can be stated for every two positions, whatever the labels are.

Which pairs are named does not depend on the order of the intervals. The pairs, taken without their
orientation, are those that any walk over the list would find (`sharedPairs`), and such a walk finds
the same ones in every order of the list.

## Main results

* `Interval.overlappingPairs_eq` — the pairs of the sweep, with the positions they come from.
* `Interval.mem_openPairs_sweepOrder` — which pairs of positions these are.
* `Interval.pairwise_openPairs` — the order in which they are listed.
* `Interval.unordered_overlappingPairs` — the unordered pairs, said without a sweep.
* `Interval.overlappingPairs_exact` — one report for each overlap, in order, for every list.
-/

namespace RegisterMap

variable {α : Type}

namespace Interval

/-! ### Overlaps -/

/-- The intervals **overlap**: both have points, and the later one of the two starts lies before the
earlier one of the two ends. -/
def Overlaps (a b : Interval α) : Prop :=
  a.start < a.stop ∧ b.start < b.stop ∧
    max a.start.toNat b.start.toNat < min a.stop.toNat b.stop.toNat

instance (a b : Interval α) : Decidable (Overlaps a b) := inferInstanceAs (Decidable (_ ∧ _))

/-- Overlapping does not depend on the order. -/
theorem overlaps_comm {a b : Interval α} : Overlaps a b ↔ Overlaps b a := by
  simp only [Overlaps, max_comm a.start.toNat, min_comm a.stop.toNat, and_left_comm]

/-- Of two intervals with points, one that starts no later overlaps the other if it is **still
open** when that one starts. -/
theorem overlaps_iff_open {a b : Interval α} (ha : a.nonempty = true) (hb : b.nonempty = true)
    (h : a.start ≤ b.start) : Overlaps a b ↔ b.start < a.stop := by
  simp only [Overlaps, nonempty, decide_eq_true_eq, UInt64.lt_iff_toNat_lt,
    UInt64.le_iff_toNat_le] at ha hb h ⊢
  omega

/-! ### Pairs with their positions -/

/-- Two intervals of a list, each with its position. -/
abbrev PlacedPair (α : Type) := (Interval α × ℕ) × (Interval α × ℕ)

namespace PlacedPair

/-- What is **reported** about a pair. -/
def labels (x : PlacedPair α) : α × α := (x.1.1.label, x.2.1.label)

/-- The two positions, in no order. -/
def positions (x : PlacedPair α) : Sym2 ℕ := s(x.1.2, x.2.2)

/-- The **order of the report**: by the second interval of a pair, then by the first one, both in
sweep order. -/
def Before (x y : PlacedPair α) : Prop := Precedes x.2 y.2 ∨ x.2 = y.2 ∧ Precedes x.1 y.1

end PlacedPair

/-- The pairs that a sweep finds, with their positions: those of each interval and the `active` ones
that are still open when it starts. -/
def openPairs : List (Interval α × ℕ) → List (Interval α × ℕ) → List (PlacedPair α)
  | _, [] => []
  | active, q :: rest =>
    (active.filter (q.1.start < ·.1.stop)).map (·, q) ++ openPairs (active ++ [q]) rest

/-- What precedes **starts no later**. -/
theorem Precedes.start_le {p q : Interval α × ℕ} (h : Precedes p q) : p.1.start ≤ q.1.start := by
  simp only [Precedes, UInt64.lt_iff_toNat_lt, UInt64.le_iff_toNat_le, ← UInt64.toNat_inj] at h ⊢
  omega

/-- Without the positions, these are the pairs of the sweep. -/
theorem map_labels_openPairs (active l : List (Interval α × ℕ)) (sorted : l.Pairwise Precedes) :
    (openPairs active l).map PlacedPair.labels = sweep (active.map Prod.fst) (l.map Prod.fst) := by
  induction l generalizing active with
  | nil => rfl
  | cons q rest ih =>
      obtain ⟨hq, sorted⟩ := List.pairwise_cons.mp sorted
      have hstart : ∀ c ∈ rest.map Prod.fst, q.1.start ≤ c.start :=
        List.forall_mem_map.mpr fun p hp => (hq p hp).start_le
      have hrest := ih (active ++ [q]) sorted
      rw [List.map_append, List.map_singleton] at hrest
      rw [openPairs, List.map_append, hrest, List.map_cons, sweep_cons _ hstart, List.filter_map,
        List.map_map, List.map_map]
      rfl

section Order

variable {active l : List (Interval α × ℕ)} (h : (active ++ l).Pairwise Precedes)

include h

/-- The pairs are those of an interval of the sweep and one **in front of it** that is still open
when it starts. -/
theorem mem_openPairs {x : PlacedPair α} : x ∈ openPairs active l ↔
    x.1 ∈ active ++ l ∧ x.2 ∈ l ∧ Precedes x.1 x.2 ∧ x.2.1.start < x.1.1.stop := by
  induction l generalizing active with
  | nil => simp [openPairs]
  | cons q rest ih =>
      obtain ⟨p, r⟩ := x
      have hsplit := List.pairwise_append.mp h
      have hbefore : ∀ p ∈ active, Precedes p q := fun p hp => hsplit.2.2 p hp q List.mem_cons_self
      have hbehind : ∀ p ∈ rest, Precedes q p := (List.pairwise_cons.mp hsplit.2.1).1
      have hrest := @ih (active ++ [q]) (by simpa using h)
      simp only [openPairs, List.mem_append, List.mem_map, List.mem_filter, decide_eq_true_eq,
        hrest, List.mem_cons, List.not_mem_nil, or_false, Prod.mk.injEq]
      constructor
      · rintro (⟨p, ⟨hp, hopen⟩, rfl, rfl⟩ | ⟨hp, hr, hprec, hopen⟩)
        · exact ⟨.inl hp, .inl rfl, hbefore p hp, hopen⟩
        · exact ⟨or_assoc.mp hp, .inr hr, hprec, hopen⟩
      · rintro ⟨hp, rfl | hr, hprec, hopen⟩
        · -- Only the intervals in front precede the one that starts.
          rcases hp with hp | rfl | hp
          · exact .inl ⟨p, ⟨hp, hopen⟩, rfl, rfl⟩
          · exact absurd hprec hprec.asymm
          · exact absurd (hbehind p hp) hprec.asymm
        · exact .inr ⟨or_assoc.mpr hp, hr, hprec, hopen⟩

/-- The pairs come in the **order of the report**. -/
theorem pairwise_openPairs : (openPairs active l).Pairwise PlacedPair.Before := by
  induction l generalizing active with
  | nil => exact List.Pairwise.nil
  | cons q rest ih =>
      have hsplit := List.pairwise_append.mp h
      have hbehind : ∀ p ∈ rest, Precedes q p := (List.pairwise_cons.mp hsplit.2.1).1
      have hrest : ((active ++ [q]) ++ rest).Pairwise Precedes := by simpa using h
      refine List.pairwise_append.mpr ⟨?_, ih hrest, ?_⟩
      · refine List.pairwise_map.mpr ((hsplit.1.filter _).imp fun {p r} hpr => ?_)
        exact .inr ⟨rfl, hpr⟩
      · intro x hx y hy
        obtain ⟨p, -, rfl⟩ := List.mem_map.mp hx
        exact .inl (hbehind _ ((mem_openPairs hrest).mp hy).2.1)

end Order

/-! ### One report for each overlap -/

/-- **The pairs of the sweep**, with the positions they come from. -/
theorem overlappingPairs_eq (intervals : List (Interval α)) :
    overlappingPairs intervals =
      (openPairs [] (sweepOrder intervals)).map PlacedPair.labels := by
  rw [map_labels_openPairs [] _ (pairwise_sweepOrder intervals), map_fst_sweepOrder, List.map_nil,
    overlappingPairs]

/-- A pair is found if its intervals **overlap** and the first one precedes the second. -/
theorem mem_openPairs_sweepOrder {intervals : List (Interval α)} {x : PlacedPair α} :
    x ∈ openPairs [] (sweepOrder intervals) ↔
      x.1 ∈ intervals.zipIdx ∧ x.2 ∈ intervals.zipIdx ∧ Precedes x.1 x.2 ∧
        Overlaps x.1.1 x.2.1 := by
  rw [mem_openPairs (pairwise_sweepOrder intervals), List.nil_append, mem_sweepOrder,
    mem_sweepOrder, List.mem_zipIdx_iff_getElem?, List.mem_zipIdx_iff_getElem?]
  constructor
  · rintro ⟨⟨hfirst, hne⟩, ⟨hsecond, hne'⟩, hprec, hopen⟩
    exact ⟨hfirst, hsecond, hprec, (overlaps_iff_open hne hne' hprec.start_le).mpr hopen⟩
  · rintro ⟨hfirst, hsecond, hprec, hover⟩
    have hne : x.1.1.nonempty = true := decide_eq_true hover.1
    have hne' : x.2.1.nonempty = true := decide_eq_true hover.2.1
    exact ⟨⟨hfirst, hne⟩, ⟨hsecond, hne'⟩, hprec,
      (overlaps_iff_open hne hne' hprec.start_le).mp hover⟩

/-- An item of a list is determined by its position. -/
theorem eq_of_mem_zipIdx {intervals : List (Interval α)} {p q : Interval α × ℕ}
    (hp : p ∈ intervals.zipIdx) (hq : q ∈ intervals.zipIdx) (h : p.2 = q.2) : p = q := by
  rw [List.mem_zipIdx_iff_getElem?] at hp hq
  exact Prod.ext (Option.some.inj (hp.symm.trans (h ▸ hq))) h

/-- No two positions make **two pairs**. -/
theorem nodup_positions (intervals : List (Interval α)) :
    ((openPairs [] (sweepOrder intervals)).map PlacedPair.positions).Nodup := by
  refine List.pairwise_map.mpr
    ((pairwise_openPairs (pairwise_sweepOrder intervals)).imp_of_mem fun {x y} hx hy hxy heq => ?_)
  obtain ⟨hx₁, hx₂, hx, -⟩ := mem_openPairs_sweepOrder.mp hx
  obtain ⟨hy₁, hy₂, hy, -⟩ := mem_openPairs_sweepOrder.mp hy
  rcases Sym2.eq_iff.mp heq with ⟨h₁, h₂⟩ | ⟨h₁, h₂⟩
  · have h₁ := eq_of_mem_zipIdx hx₁ hy₁ h₁
    have h₂ := eq_of_mem_zipIdx hx₂ hy₂ h₂
    rcases hxy with hxy | ⟨-, hxy⟩
    · exact hxy.asymm (h₂ ▸ hxy)
    · exact hxy.asymm (h₁ ▸ hxy)
  · have h₁ := eq_of_mem_zipIdx hx₁ hy₂ h₁
    have h₂ := eq_of_mem_zipIdx hx₂ hy₁ h₂
    exact hx.asymm (h₁ ▸ h₂ ▸ hy)

/-- Two positions make a pair exactly when their intervals overlap. -/
theorem mem_positions_iff {intervals : List (Interval α)} {p q : Interval α × ℕ}
    (hp : p ∈ intervals.zipIdx) (hq : q ∈ intervals.zipIdx) (hne : p.2 ≠ q.2) :
    s(p.2, q.2) ∈ (openPairs [] (sweepOrder intervals)).map PlacedPair.positions ↔
      Overlaps p.1 q.1 := by
  rw [List.mem_map]
  constructor
  · rintro ⟨x, hx, heq⟩
    obtain ⟨hx₁, hx₂, -, hover⟩ := mem_openPairs_sweepOrder.mp hx
    rcases Sym2.eq_iff.mp heq with ⟨h₁, h₂⟩ | ⟨h₁, h₂⟩
    · rwa [eq_of_mem_zipIdx hx₁ hp h₁, eq_of_mem_zipIdx hx₂ hq h₂] at hover
    · rw [eq_of_mem_zipIdx hx₁ hq h₁, eq_of_mem_zipIdx hx₂ hp h₂] at hover
      exact overlaps_comm.mp hover
  · intro hover
    rcases precedes_or_precedes hne with hprec | hprec
    · exact ⟨(p, q), mem_openPairs_sweepOrder.mpr ⟨hp, hq, hprec, hover⟩, rfl⟩
    · exact ⟨(q, p), mem_openPairs_sweepOrder.mpr ⟨hq, hp, hprec, overlaps_comm.mp hover⟩,
        Sym2.eq_swap⟩

/-! ### Pairs without an order -/

/-- What is reported, without the orientation. -/
def unordered (pairs : List (α × α)) : Multiset (Sym2 α) := ↑(pairs.map fun q => s(q.1, q.2))

/-- The labels of all intervals that **overlap**, found by comparing each interval with those behind
it. -/
def sharedPairs : List (Interval α) → Multiset (Sym2 α)
  | [] => 0
  | a :: l => ↑((l.filter (Overlaps a ·)).map fun b => s(a.label, b.label)) + sharedPairs l

/-- The shared pairs are the same **in every order** of the list. -/
theorem sharedPairs_perm {l l' : List (Interval α)} (h : l.Perm l') :
    sharedPairs l = sharedPairs l' := by
  induction h with
  | nil => rfl
  | cons a hl ih =>
      rw [sharedPairs, sharedPairs, ih, Multiset.coe_eq_coe.mpr ((hl.filter _).map _)]
  | swap a b l =>
      by_cases hab : Overlaps a b
      · have hba := overlaps_comm.mp hab
        simp only [sharedPairs, List.filter_cons, hab, hba, decide_true, if_true, List.map_cons,
          ← Multiset.cons_coe, Multiset.cons_add, Sym2.eq_swap (a := a.label)]
        rw [add_left_comm]
      · have hba := mt overlaps_comm.mp hab
        simp only [sharedPairs, List.filter_cons, hab, hba, decide_false, Bool.false_eq_true,
          if_false]
        rw [add_left_comm]
  | trans _ _ ih ih' => exact ih.trans ih'

/-- An interval **without points** shares none. -/
theorem sharedPairs_filter_nonempty (l : List (Interval α)) :
    sharedPairs (l.filter (·.nonempty)) = sharedPairs l := by
  induction l with
  | nil => rfl
  | cons a l ih =>
      have hfilter : (l.filter (·.nonempty)).filter (Overlaps a ·) = l.filter (Overlaps a ·) := by
        rw [List.filter_filter]
        refine List.filter_congr fun b _ => ?_
        rw [Bool.and_eq_left_iff_imp, decide_eq_true_eq]
        exact fun h => decide_eq_true h.2.1
      cases ha : a.nonempty with
      | true =>
          rw [List.filter_cons_of_pos ha, sharedPairs, sharedPairs, ih, hfilter]
      | false =>
          have hnone : l.filter (Overlaps a ·) = [] := by
            refine List.filter_eq_nil_iff.mpr fun b _ hover => ?_
            have hpoint : a.nonempty = true := decide_eq_true (decide_eq_true_eq.mp hover).1
            exact Bool.false_ne_true (ha.symm.trans hpoint)
          rw [List.filter_cons_of_neg (by simp [ha]), ih, sharedPairs, hnone, List.map_nil,
            Multiset.coe_nil, zero_add]

/-- A sweep **adds the pairs** of the intervals that it goes over. The `active` ones are those that
it went over already. -/
theorem unordered_sweep (l active : List (Interval α))
    (hpoints : ∀ a ∈ active ++ l, a.nonempty = true)
    (sorted : (active ++ l).Pairwise fun a b => a.start ≤ b.start) :
    unordered (sweep active l) + sharedPairs active = sharedPairs (active ++ l) := by
  induction l generalizing active with
  | nil => rw [sweep, unordered, List.map_nil, Multiset.coe_nil, zero_add, List.append_nil]
  | cons b rest ih =>
      have hsplit := List.pairwise_append.mp sorted
      have hopen : active.filter (b.start < ·.stop) = active.filter (Overlaps b ·) := by
        refine List.filter_congr fun a ha => decide_eq_decide.mpr ?_
        rw [overlaps_comm, overlaps_iff_open (hpoints a (List.mem_append_left _ ha))
          (hpoints b (by simp)) (hsplit.2.2 a ha b List.mem_cons_self)]
      have hnew : unordered ((active.filter (b.start < ·.stop)).map fun a => (a.label, b.label)) +
          sharedPairs active = sharedPairs (active ++ [b]) := by
        rw [sharedPairs_perm (List.perm_append_singleton b active), sharedPairs, hopen, unordered,
          List.map_map]
        simp only [Function.comp_def, Sym2.eq_swap]
      have hrest := ih (active ++ [b]) (by simpa using hpoints) (by simpa using sorted)
      rw [List.append_assoc, List.singleton_append] at hrest
      rw [sweep_cons active (List.pairwise_cons.mp hsplit.2.1).1, ← hrest, ← hnew, unordered,
        List.map_append, ← Multiset.coe_add, add_assoc, add_left_comm]
      rfl

/-- The unordered pairs of the sweep are the **shared pairs** of the list. -/
theorem unordered_overlappingPairs (intervals : List (Interval α)) :
    unordered (overlappingPairs intervals) = sharedPairs intervals := by
  have hperm := List.mergeSort_perm (intervals.filter (·.nonempty)) before
  have hsorted : ((intervals.filter (·.nonempty)).mergeSort before).Pairwise
      fun a b => a.start ≤ b.start := by
    rw [← map_fst_sweepOrder]
    exact List.pairwise_map.mpr ((pairwise_sweepOrder intervals).imp fun h => h.start_le)
  have hpoints : ∀ a ∈ (intervals.filter (·.nonempty)).mergeSort before, a.nonempty = true :=
    fun a ha => (List.mem_filter.mp (hperm.mem_iff.mp ha)).2
  have hsweep := unordered_sweep _ [] hpoints hsorted
  rw [sharedPairs, add_zero, List.nil_append] at hsweep
  rw [overlappingPairs, hsweep, sharedPairs_perm hperm, sharedPairs_filter_nonempty]

/-! ### Exactness with order -/

/-- **The pairs, their number and their order.** For any list of intervals, the reports come from
pairs of positions, each with the interval first that precedes the other in sweep order. Two
positions make one pair if their intervals overlap, and none otherwise; the pairs are listed by
their second interval, and for one second interval by the first. In any other order of the
intervals the same pairs are reported, up to order and orientation. -/
theorem overlappingPairs_exact (intervals : List (Interval α)) :
    (∃ found : List (PlacedPair α),
      overlappingPairs intervals = found.map PlacedPair.labels ∧
      found.Pairwise PlacedPair.Before ∧
      (∀ x ∈ found, x.1 ∈ intervals.zipIdx ∧ x.2 ∈ intervals.zipIdx ∧ Precedes x.1 x.2) ∧
      ∀ p ∈ intervals.zipIdx, ∀ q ∈ intervals.zipIdx, p.2 ≠ q.2 →
        (found.map PlacedPair.positions).count s(p.2, q.2) =
          if Overlaps p.1 q.1 then 1 else 0) ∧
    ∀ intervals' : List (Interval α), intervals'.Perm intervals →
      ((overlappingPairs intervals').map fun q => s(q.1, q.2)).Perm
        ((overlappingPairs intervals).map fun q => s(q.1, q.2)) := by
  refine ⟨⟨openPairs [] (sweepOrder intervals), overlappingPairs_eq intervals,
    pairwise_openPairs (pairwise_sweepOrder intervals), fun x hx => ?_, ?_⟩, ?_⟩
  · obtain ⟨hfirst, hsecond, hprec, -⟩ := mem_openPairs_sweepOrder.mp hx
    exact ⟨hfirst, hsecond, hprec⟩
  · intro p hp q hq hne
    rw [(nodup_positions intervals).count, if_congr (mem_positions_iff hp hq hne) rfl rfl]
  · intro intervals' hperm
    refine Multiset.coe_eq_coe.mp ?_
    change unordered (overlappingPairs intervals') = unordered (overlappingPairs intervals)
    rw [unordered_overlappingPairs, unordered_overlappingPairs, sharedPairs_perm hperm]

end Interval

/-! ### Nested intervals -/

namespace NestedIntervals

open RegisterMap.Interval

/-- One long interval, two equal ones within it, one that starts at its end, and one without
points. -/
def intervals : List (Interval Char) :=
  [⟨0, 8, 'a'⟩, ⟨1, 3, 'b'⟩, ⟨1, 3, 'c'⟩, ⟨8, 9, 'd'⟩, ⟨2, 2, 'e'⟩]

/-- The two equal intervals make one pair, those that only touch make none, and the reversed list
reports the same pairs. -/
theorem overlappingPairs_exact_nested :
    (∃ found : List (PlacedPair Char),
      overlappingPairs intervals = found.map PlacedPair.labels ∧
      (found.map PlacedPair.positions).count s(1, 2) = 1 ∧
      (found.map PlacedPair.positions).count s(0, 3) = 0) ∧
    ((overlappingPairs intervals.reverse).map fun q => s(q.1, q.2)).Perm
      ((overlappingPairs intervals).map fun q => s(q.1, q.2)) := by
  obtain ⟨⟨found, hreported, -, -, hcount⟩, hperm⟩ := overlappingPairs_exact intervals
  refine ⟨⟨found, hreported, ?_, ?_⟩, hperm intervals.reverse (List.reverse_perm intervals)⟩
  · exact hcount (⟨1, 3, 'b'⟩, 1) (by decide) (⟨1, 3, 'c'⟩, 2) (by decide) (by decide)
  · exact hcount (⟨0, 8, 'a'⟩, 0) (by decide) (⟨8, 9, 'd'⟩, 3) (by decide) (by decide)

end NestedIntervals

end RegisterMap
