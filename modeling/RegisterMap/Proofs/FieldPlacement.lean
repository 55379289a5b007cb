import Mathlib.Data.List.Induction
import Mathlib.Order.Bounds.Basic
import RegisterMap.Document.Resolving
import RegisterMap.Proofs.Layout
import RegisterMap.Proofs.Validity

/-!
# Where Fields Are Placed

The fields of a register are placed one after the other, and some of them say where their bits are
while others leave it open. The cursor is all that the placer keeps of the fields behind it. What
carries the whole development is that it is the furthest end of them, not the end of the last one: a
field that is placed below others does not draw the cursor back, and one that cannot be placed does
not move it. So a field that starts at the cursor starts behind all fields before it, in whatever
order these came.

Ends are 32 bits wide and saturate. A field may claim bits past that, and then the cursor is not its
end but the largest bit position; the bits that follow are apart only as long as this has not
happened.

## Main results

* `FieldPlacer.place_cases` — what one step can do.
* `Placing.cursor_run` — the cursor is the furthest end of the fields placed.
* `Placing.auto_run` — a field without a position is placed behind all fields before it.
* `Placing.offset_run_auto`, `Placing.pairwise_run_auto` — fields that all leave their place open.
* `DraftRegister.resolve_placed` — a register that resolves has the bits that the placer gave out.
* `FieldPlacer.placement_exact` — the placer, and the registers all of whose fields are automatic.
-/

namespace RegisterMap

/-! ### Spans -/

namespace BitSpan

/-- The bit behind the span, as an **exact sum**. -/
def stop (s : BitSpan) : ℕ := s.offset.toNat + s.width.toNat

/-- The end of the span in 32 bits: past the largest bit position, that position. -/
def clampedStop (s : BitSpan) : ℕ := min s.stop (UInt32.size - 1)

/-- The **bits** of the span. -/
def bits (s : BitSpan) : Set ℕ := Set.Ico s.offset.toNat s.stop

/-- Where spans end, for one way to measure it; without any span, at bit 0. -/
def ends (stop : BitSpan → ℕ) (spans : List BitSpan) : Set ℕ :=
  insert 0 {n | ∃ s ∈ spans, stop s = n}

/-- Clamping the end of a span is what **a saturating sum** does. -/
theorem clampedStop_eq (s : BitSpan) : s.clampedStop = (satAdd32 s.offset s.width).toNat :=
  (satAdd32_toNat s.offset s.width).symm

/-- An end that fits 32 bits is not clamped. -/
theorem clampedStop_of_lt {s : BitSpan} (h : s.stop < UInt32.size) : s.clampedStop = s.stop :=
  Nat.min_eq_left (Nat.le_pred_of_lt h)

/-- One more span adds **its end**. -/
theorem ends_append (stop : BitSpan → ℕ) (spans : List BitSpan) (s : BitSpan) :
    ends stop (spans ++ [s]) = insert (stop s) (ends stop spans) := by
  rw [ends, ends, Set.insert_comm]
  congr 1
  ext n
  simp only [List.mem_append, List.mem_singleton, Set.mem_ofPred_eq, Set.mem_insert_iff,
    or_and_right, exists_or, exists_eq_left]
  exact or_comm.trans (or_congr_left eq_comm)

/-- Ends within 32 bits are the same however they are measured. -/
theorem ends_clampedStop {spans : List BitSpan} (h : ∀ s ∈ spans, s.stop < UInt32.size) :
    ends clampedStop spans = ends stop spans := by
  rw [ends, ends]
  congr 1
  ext n
  exact exists_congr fun s => and_congr_right fun hs => by rw [clampedStop_of_lt (h s hs)]

end BitSpan

/-- The bits that a field was given. -/
def BitField.span (f : BitField) : BitSpan := ⟨f.bitOffset, f.bitWidth⟩

/-- The end of a field is clamped. -/
theorem BitField.bitEnd_toNat (f : BitField) : f.bitEnd.toNat = f.span.clampedStop :=
  satAdd32_toNat f.bitOffset f.bitWidth

/-! ### One step -/

/-- The larger of two numbers of 32 bits. -/
theorem max32_toNat (a b : UInt32) : (max a b).toNat = max a.toNat b.toNat := by
  change (if a ≤ b then b else a).toNat = _
  simp only [UInt32.le_iff_toNat_le]
  split <;> omega

namespace FieldPlacer

/-- A field is either **not placed**, and the placer stays as it is, or it is placed with at least
one bit, and the cursor moves to its end unless it is past that already. -/
theorem place_cases (p : FieldPlacer) (x : Placement) :
    (∃ e, p.place x = (.error e, p)) ∨
    ∃ span, p.spanOf x = .ok span ∧ span.width ≠ 0 ∧
      p.place x = (.ok span, ⟨max p.cursor (satAdd32 span.offset span.width)⟩) := by
  rw [place]
  cases p.spanOf x with
  | error e => exact .inl ⟨e, rfl⟩
  | ok span =>
      by_cases hwidth : span.width = 0
      · exact .inl ⟨_, if_pos hwidth⟩
      · exact .inr ⟨span, rfl, hwidth, if_neg hwidth⟩

/-- A field that cannot be placed **leaves the cursor where it is**. -/
theorem place_error {p : FieldPlacer} {x : Placement} {e : Problem}
    (h : (p.place x).1 = .error e) : (p.place x).2 = p := by
  obtain ⟨e', he⟩ | ⟨span, -, -, hspan⟩ := p.place_cases x
  · rw [he]
  · rw [hspan] at h
    nomatch h

/-- A field without a position is placed at the **cursor**, if it has bits. -/
theorem place_auto (p : FieldPlacer) {width : UInt32} (h : width ≠ 0) :
    p.place (.auto width) = (.ok ⟨p.cursor, width⟩, ⟨max p.cursor (satAdd32 p.cursor width)⟩) := by
  rw [place, spanOf]
  exact if_neg h

/-- A field without bits is placed nowhere. -/
theorem place_auto_zero (p : FieldPlacer) : p.place (.auto 0) = (.error .emptyField, p) := rfl

end FieldPlacer

/-! ### One field after the other -/

/-- A register **while its fields are placed**: the placer, and what has been placed so far. -/
structure Placing where
  placer : FieldPlacer := {}
  placed : List BitSpan := []

namespace Placing

/-- **Place the next field**; a field that cannot be placed is passed over. -/
def step (s : Placing) (x : Placement) : Placing :=
  match s.placer.place x with
  | (.ok span, placer) => ⟨placer, s.placed ++ [span]⟩
  | (.error _, placer) => ⟨placer, s.placed⟩

/-- **Place fields** in order, from the first one on. -/
def run (xs : List Placement) : Placing := xs.foldl step {}

/-- Placing one field more is one step more. -/
theorem run_append (xs : List Placement) (x : Placement) : run (xs ++ [x]) = (run xs).step x := by
  rw [run, List.foldl_append, List.foldl_cons, List.foldl_nil, run]

/-- The cursor is the **furthest end** of what has been placed. -/
def AtFurthest (s : Placing) : Prop :=
  IsGreatest (BitSpan.ends BitSpan.clampedStop s.placed) s.placer.cursor.toNat

/-- **One step keeps the cursor** at the furthest end. -/
theorem AtFurthest.step {s : Placing} (h : s.AtFurthest) (x : Placement) :
    (s.step x).AtFurthest := by
  obtain ⟨e, he⟩ | ⟨span, -, -, hspan⟩ := s.placer.place_cases x
  · rwa [Placing.step, he]
  · rw [Placing.step, hspan, AtFurthest, BitSpan.ends_append, max32_toNat, max_comm,
      ← BitSpan.clampedStop_eq]
    exact h.insert _

/-- **The cursor** is the furthest end of all fields placed so far, whatever was tried between
them. -/
theorem cursor_run (xs : List Placement) : (run xs).AtFurthest := by
  induction xs using List.reverseRecOn with
  | nil =>
      refine ⟨.inl rfl, ?_⟩
      rintro n (rfl | ⟨s, hs, -⟩)
      · exact Nat.le_refl 0
      · nomatch hs
  | append_singleton xs x ih =>
      rw [run_append]
      exact ih.step x

/-- No field that is placed ends behind the cursor. -/
theorem AtFurthest.clampedStop_le {s : Placing} (h : s.AtFurthest) {t : BitSpan}
    (ht : t ∈ s.placed) : t.clampedStop ≤ s.placer.cursor.toNat :=
  h.2 (.inr ⟨t, ht, rfl⟩)

/-- **Automatic placement.** As long as all fields end within 32 bits, a field without a position
starts where the furthest of them ends, and shares no bit with any of them. -/
theorem auto_run (before : List Placement)
    (hroom : ∀ s ∈ (run before).placed, s.stop < UInt32.size) {width : UInt32}
    (hwidth : width ≠ 0) :
    ∃ span placer, (run before).placer.place (.auto width) = (.ok span, placer) ∧
      span.width = width ∧
      IsGreatest (BitSpan.ends BitSpan.stop (run before).placed) span.offset.toNat ∧
      ∀ s ∈ (run before).placed, Disjoint s.bits span.bits := by
  have hcursor := cursor_run before
  refine ⟨_, _, (run before).placer.place_auto hwidth, rfl, ?_, fun s hs => ?_⟩
  · rwa [AtFurthest, BitSpan.ends_clampedStop hroom] at hcursor
  · have hbehind := hcursor.clampedStop_le hs
    rw [BitSpan.clampedStop_of_lt (hroom s hs)] at hbehind
    rw [BitSpan.bits, BitSpan.bits, Set.Ico_disjoint_Ico]
    exact (Nat.min_le_left _ _).trans (hbehind.trans (Nat.le_max_right _ _))

/-! ### Fields that are all automatic -/

/-- No field of a list has zero bits, nor does the last one. -/
theorem not_mem_concat {widths : List UInt32} {width : UInt32} (h : 0 ∉ widths ++ [width]) :
    0 ∉ widths ∧ width ≠ 0 := by
  rw [List.mem_append, List.mem_singleton, not_or] at h
  exact ⟨h.1, Ne.symm h.2⟩

/-- **One more field** without a position is placed at the cursor. -/
theorem run_concat_auto (widths : List UInt32) {width : UInt32} (h : width ≠ 0) :
    run ((widths ++ [width]).map .auto) =
      ⟨⟨max (run (widths.map .auto)).placer.cursor
          (satAdd32 (run (widths.map .auto)).placer.cursor width)⟩,
        (run (widths.map .auto)).placed ++ [⟨(run (widths.map .auto)).placer.cursor, width⟩]⟩ := by
  rw [List.map_append, List.map_singleton, run_append, step, FieldPlacer.place_auto _ h]

variable {widths : List UInt32}

/-- Automatic fields are placed **with all their bits**. -/
theorem map_width_run_auto (h : 0 ∉ widths) :
    (run (widths.map .auto)).placed.map (·.width) = widths := by
  induction widths using List.reverseRecOn with
  | nil => rfl
  | append_singleton widths width ih =>
      obtain ⟨hwidths, hwidth⟩ := not_mem_concat h
      rw [run_concat_auto widths hwidth, List.map_append, ih hwidths, List.map_singleton]

/-- Behind fields without positions, the cursor is **the sum of their widths**. -/
theorem cursor_run_auto (h : 0 ∉ widths) :
    (run (widths.map .auto)).placer.cursor.toNat =
      min (widths.map (·.toNat)).sum (UInt32.size - 1) := by
  induction widths using List.reverseRecOn with
  | nil => rfl
  | append_singleton widths width ih =>
      obtain ⟨hwidths, hwidth⟩ := not_mem_concat h
      rw [run_concat_auto widths hwidth, max32_toNat, satAdd32_toNat, ih hwidths, List.map_append,
        List.sum_append, List.map_singleton, List.sum_singleton]
      omega

/-- Each field starts after **as many bits** as the fields before it have. -/
theorem offset_run_auto (h : 0 ∉ widths) {n : ℕ} {s : BitSpan}
    (hs : (run (widths.map .auto)).placed[n]? = some s) :
    s.offset.toNat = min ((widths.take n).map (·.toNat)).sum (UInt32.size - 1) := by
  induction widths using List.reverseRecOn with
  | nil => nomatch hs
  | append_singleton widths width ih =>
      obtain ⟨hwidths, hwidth⟩ := not_mem_concat h
      have hlength : (run (widths.map .auto)).placed.length = widths.length := by
        rw [← List.length_map, map_width_run_auto hwidths]
      rw [run_concat_auto widths hwidth] at hs
      rcases Nat.lt_or_ge n widths.length with hn | hn
      · rw [List.getElem?_append_left (hlength ▸ hn)] at hs
        rw [List.take_append_of_le_length hn.le]
        exact ih hwidths hs
      · rw [List.getElem?_append_right (hlength ▸ hn), List.getElem?_singleton] at hs
        split at hs
        · next hlast =>
          obtain rfl := Option.some.inj hs
          obtain rfl : n = widths.length := by omega
          rw [List.take_left]
          exact cursor_run_auto hwidths
        · nomatch hs

/-- Each field ends, as far as 32 bits go, **before the next ones** start. -/
theorem pairwise_run_auto (h : 0 ∉ widths) :
    (run (widths.map .auto)).placed.Pairwise fun s t => s.clampedStop ≤ t.offset.toNat := by
  induction widths using List.reverseRecOn with
  | nil => exact .nil
  | append_singleton widths width ih =>
      obtain ⟨hwidths, hwidth⟩ := not_mem_concat h
      rw [run_concat_auto widths hwidth]
      refine List.pairwise_append.mpr ⟨ih hwidths, List.pairwise_singleton _ _, ?_⟩
      rintro s hs _ ht
      obtain rfl := List.mem_singleton.mp ht
      exact (cursor_run (widths.map .auto)).clampedStop_le hs

end Placing

/-! ### Registers -/

/-- The fields of a register are **given the bits** that the placer gives out. -/
theorem placeFields_placed (access : AccessPolicy) (s : Placing) (fields : List DraftField) :
    Ensures (placeFields access s.placer fields) fun fs =>
      ((fields.map (·.placement)).foldl Placing.step s).placed = s.placed ++ fs.map (·.span) := by
  induction fields generalizing s with
  | nil => exact .ok (List.append_nil _).symm
  | cons f fields ih =>
      rw [placeFields]
      split
      · exact .failAt _ _
      · next span placer hplace =>
        have hstep : s.step f.placement = ⟨placer, s.placed ++ [span]⟩ := by
          rw [Placing.step, hplace]
        refine (ih ⟨placer, s.placed ++ [span]⟩).bind fun fs hfs => .ok ?_
        rw [List.map_cons, List.foldl_cons, hstep, hfs, List.append_assoc]
        rfl

/-- The fields of a register are those that **the placer placed**, in their order. -/
theorem DraftRegister.resolve_placed (r : DraftRegister) (cursor : Address) :
    Ensures (r.resolve cursor) fun register =>
      (Placing.run (r.fields.map (·.placement))).placed = register.fields.map (·.span) :=
  (placeFields_placed r.access {} r.fields).bind fun _ hfs => .ok hfs

/-- Fields without positions are **placed unless one has no bits**. -/
theorem exists_placeFields_iff (access : AccessPolicy) (placer : FieldPlacer)
    {fields : List DraftField} {widths : List UInt32}
    (hauto : fields.map (·.placement) = widths.map .auto) :
    (∃ fs, placeFields access placer fields = .ok fs) ↔ 0 ∉ widths := by
  induction fields generalizing placer widths with
  | nil =>
      obtain rfl := List.map_eq_nil_iff.mp hauto.symm
      exact iff_of_true ⟨[], rfl⟩ List.not_mem_nil
  | cons f fields ih =>
      obtain ⟨width, widths, rfl, hf, hfields⟩ := List.map_eq_cons_iff.mp hauto.symm
      replace hf : f.placement = .auto width := hf.symm
      rw [placeFields, hf, List.mem_cons, not_or]
      by_cases hwidth : 0 = width
      · rw [← hwidth, FieldPlacer.place_auto_zero]
        refine iff_of_false ?_ fun h => h.1 rfl
        rintro ⟨_, h⟩
        exact failAt_ne_ok h
      · rw [FieldPlacer.place_auto _ (Ne.symm hwidth), and_iff_right hwidth, ← ih _ hfields.symm]
        exact exists_bind_pure_iff

/-- No overlap of fields is reported exactly when their bits are **apart**. -/
theorem RegisterEntry.fieldOverlaps_eq_nil_iff (e : RegisterEntry) :
    e.fieldOverlaps = [] ↔ e.register.fields.Pairwise fun f g => Disjoint f.bits g.bits := by
  have hlists : Lists (ClashReport (·.bitOffset.toUInt64) (·.bitEnd.toUInt64) (·.name)
      .fieldOverlap e.path e.register.fields) e.fieldOverlaps :=
    lists_clashReports fun _ => ⟨rfl, rfl, rfl⟩
  rw [hlists.eq_nil_iff, no_clashReport_iff]
  simp only [points_of_field]

/-- A register whose fields have **no positions** resolves unless one of them has no bits. Each
field then starts after as many bits as the fields before it have, and no two share any. -/
theorem DraftRegister.resolve_auto {r : DraftRegister} {widths : List UInt32}
    (hauto : r.fields.map (·.placement) = widths.map .auto) (cursor : Address) :
    ((∃ register, r.resolve cursor = .ok register) ↔ 0 ∉ widths) ∧
      ∀ register, r.resolve cursor = .ok register →
        register.fields.map (·.bitWidth) = widths ∧
        (∀ n f, register.fields[n]? = some f →
          f.bitOffset.toNat = min ((widths.take n).map (·.toNat)).sum (UInt32.size - 1)) ∧
        ∀ e : RegisterEntry, e.register.fields = register.fields → e.fieldOverlaps = [] := by
  have hresolves : (∃ register, r.resolve cursor = .ok register) ↔ 0 ∉ widths := by
    rw [← exists_placeFields_iff r.access {} hauto]
    exact exists_bind_pure_iff
  refine ⟨hresolves, fun register h => ?_⟩
  have hplaced := r.resolve_placed cursor register h
  rw [hauto] at hplaced
  have hbits := hresolves.mp ⟨register, h⟩
  refine ⟨?_, fun n f hf => ?_, fun e he => ?_⟩
  · have hwidths := Placing.map_width_run_auto hbits
    rwa [hplaced, List.map_map] at hwidths
  · have hspan : (Placing.run (widths.map .auto)).placed[n]? = some f.span := by
      rw [hplaced, List.getElem?_map, hf, Option.map_some]
    exact Placing.offset_run_auto hbits hspan
  · have hapart := Placing.pairwise_run_auto hbits
    rw [hplaced, List.pairwise_map] at hapart
    rw [e.fieldOverlaps_eq_nil_iff, he]
    refine hapart.imp fun {f g} hfg => ?_
    rw [BitField.bits, BitField.bits, Set.Ico_disjoint_Ico, f.bitEnd_toNat]
    exact (Nat.min_le_left _ _).trans (hfg.trans (Nat.le_max_right _ _))

/-- **Where fields are placed.** Whatever fields were tried before, a field that cannot be placed
leaves the placer as it is, and the cursor is the furthest end of the fields placed, clamped to 32
bits. As long as these end within 32 bits, a field without a position that has bits is placed where
the furthest of them ends and shares no bit with any of them. A register all of whose fields are
without positions resolves if they have bits; they follow each other from bit 0 on, and no overlap
of them is reported. -/
theorem FieldPlacer.placement_exact :
    (∀ before : List Placement,
      (∀ x e, ((Placing.run before).placer.place x).1 = .error e →
        ((Placing.run before).placer.place x).2 = (Placing.run before).placer) ∧
      IsGreatest (BitSpan.ends BitSpan.clampedStop (Placing.run before).placed)
        (Placing.run before).placer.cursor.toNat ∧
      ((∀ s ∈ (Placing.run before).placed, s.stop < UInt32.size) → ∀ width : UInt32, width ≠ 0 →
        ∃ span placer, (Placing.run before).placer.place (.auto width) = (.ok span, placer) ∧
          span.width = width ∧
          IsGreatest (BitSpan.ends BitSpan.stop (Placing.run before).placed) span.offset.toNat ∧
          ∀ s ∈ (Placing.run before).placed, Disjoint s.bits span.bits)) ∧
    ∀ (r : DraftRegister) (widths : List UInt32),
      r.fields.map (·.placement) = widths.map .auto → ∀ cursor : Address,
        ((∃ register, r.resolve cursor = .ok register) ↔ 0 ∉ widths) ∧
        ∀ register, r.resolve cursor = .ok register →
          register.fields.map (·.bitWidth) = widths ∧
          (∀ n f, register.fields[n]? = some f →
            f.bitOffset.toNat = min ((widths.take n).map (·.toNat)).sum (UInt32.size - 1)) ∧
          ∀ e : RegisterEntry, e.register.fields = register.fields → e.fieldOverlaps = [] := by
  refine ⟨fun before => ⟨fun x e h => place_error h, Placing.cursor_run before, ?_⟩, ?_⟩
  · exact fun hroom width hwidth => Placing.auto_run before hroom hwidth
  · exact fun r widths hauto cursor => DraftRegister.resolve_auto hauto cursor

/-! ### Fields of all kinds -/

namespace MixedFields

/-- Fields of all kinds, among them a range in the wrong order and a field without bits; the last
one is placed below the others. -/
def before : List Placement :=
  [.range "[7:4]", .range "[3:7]", .explicit 12 2, .explicit 20 0, .auto 3, .explicit 1 2]

/-- A register with two fields without positions. -/
def draft : DraftRegister :=
  { path := "soc.unit.ctrl", name := "ctrl", description := none, offset := none, width := 32,
    access := .readWrite, resetValue := none
    fields := [("mode", 3), ("level", 5)].map fun (name, width) =>
      { path := name, name, description := none, placement := .auto width, access := none,
        resetValue := none } }

/-- Where the fields in front are placed. -/
theorem placed_before : (Placing.run before).placed = [⟨4, 4⟩, ⟨12, 2⟩, ⟨14, 3⟩, ⟨1, 2⟩] := by
  decide +kernel

/-- The next field without a position is placed behind all of them, and the fields of the register
are apart. -/
theorem placement_exact_mixed :
    ((Placing.run before).placer.place (.range "[3:7]")).2 = (Placing.run before).placer ∧
      (∃ span placer, (Placing.run before).placer.place (.auto 5) = (.ok span, placer) ∧
        span.width = 5 ∧ ∀ s ∈ (Placing.run before).placed, Disjoint s.bits span.bits) ∧
      ∃ register, draft.resolve 0 = .ok register ∧ register.fields.map (·.bitWidth) = [3, 5] ∧
        ∀ e : RegisterEntry, e.register = register → e.fieldOverlaps = [] := by
  obtain ⟨hplacer, hregister⟩ := FieldPlacer.placement_exact
  obtain ⟨hfails, -, hauto⟩ := hplacer before
  obtain ⟨hresolves, hfields⟩ := hregister draft [3, 5] rfl 0
  refine ⟨hfails _ (.badBitRange (.reversed 3 7)) (by decide +kernel), ?_, ?_⟩
  · have hroom : ∀ s ∈ (Placing.run before).placed, s.stop < UInt32.size := by
      rw [placed_before]
      decide
    obtain ⟨span, placer, hplace, hwidth, -, hapart⟩ := hauto hroom 5 (by decide)
    exact ⟨span, placer, hplace, hwidth, hapart⟩
  · obtain ⟨register, h⟩ := hresolves.mpr (by decide)
    obtain ⟨hwidths, -, hapart⟩ := hfields register h
    exact ⟨register, h, hwidths, fun e he => hapart e (he ▸ rfl)⟩

end MixedFields

end RegisterMap
