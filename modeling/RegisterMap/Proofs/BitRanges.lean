import Mathlib.Data.List.DropRight
import RegisterMap.Document.BitRange
import RegisterMap.Proofs.Ensures
import RegisterMap.Proofs.Numerals
import RegisterMap.Proofs.Paths

/-!
# The Grammar of Bit Ranges

A bit range is read by trimming, cutting off brackets, splitting at the first colon and reading two
numbers. What it accepts is said here without any of these steps: a text **names** the bits from `m`
down to `l` if it is a pair of brackets around two numerals with a colon between them, or around one
numeral, with blanks wherever two of these parts meet and at both ends. A numeral is a string of
decimal digits that is not empty, of any length, and its value is the sum of its digits' place
values. The reader accepts exactly the texts that name bits in order and within 64.

Neither a numeral nor a blank has a colon in it. So the first colon of a range in brackets is the
one between its bounds, and there is none in a range of one bit.

## Main results

* `Text.padded_trimChars`, `Text.trimChars_eq_of_padded` — trimming removes the blanks at both ends.
* `Text.ofDigits?_eq_some_iff` — which decimal numerals are read, and as which number.
* `BitRange.parseBound_eq_ok_iff`, `BitRange.insideBrackets?_eq_some_iff` — the steps of the reader.
* `BitRange.parse_eq_ok_iff` — which texts are accepted, and as which bits.
-/

namespace RegisterMap

namespace Text

/-! ### Blanks at both ends -/

/-- The characters are `inner` **between blanks**, any number of them on either side. -/
def Padded (inner cs : List Char) : Prop :=
  ∃ front back, (∀ c ∈ front, isBlank c) ∧ (∀ c ∈ back, isBlank c) ∧ cs = front ++ inner ++ back

/-- Trimming takes away **nothing but blanks** at both ends. -/
theorem padded_trimChars (cs : List Char) : Padded (trimChars cs) cs := by
  refine ⟨cs.takeWhile isBlank, ((cs.dropWhile isBlank).reverse.takeWhile isBlank).reverse,
    fun c hc => List.mem_takeWhile_imp hc,
    fun c hc => List.mem_takeWhile_imp (List.mem_reverse.mp hc), ?_⟩
  rw [trimChars, List.append_assoc, ← List.reverse_append, List.takeWhile_append_dropWhile,
    List.reverse_reverse, List.takeWhile_append_dropWhile]

/-- Trimming leaves a text that **starts and ends** with characters that are not blank. -/
theorem trimChars_eq_of_padded {inner cs : List Char} (h : Padded inner cs) (hne : inner ≠ [])
    (hhead : ¬ isBlank (inner.head hne)) (hlast : ¬ isBlank (inner.getLast hne)) :
    trimChars cs = inner := by
  obtain ⟨front, back, hfront, hback, rfl⟩ := h
  have hdrop : (front ++ inner ++ back).dropWhile isBlank = inner ++ back := by
    obtain ⟨c, cs, rfl⟩ := List.exists_cons_of_ne_nil hne
    rw [List.head_cons] at hhead
    rw [List.append_assoc, List.dropWhile_append_of_pos hfront, List.cons_append,
      List.dropWhile_cons_of_neg hhead]
  have hback : ∀ c ∈ back.reverse, isBlank c := fun c hc => hback c (List.mem_reverse.mp hc)
  rw [trimChars, hdrop, List.reverse_append, List.dropWhile_append_of_pos hback]
  exact List.rdropWhile_eq_self_iff.mpr fun _ => hlast

/-! ### Numerals -/

/-- A string of **decimal digits** with its value, the sum of the digits' place values. -/
structure IsNumeral (ds : List Char) (n : ℕ) : Prop where
  ne_nil : ds ≠ []
  digits : ∀ c ∈ ds, c.isDigit
  value : Nat.ofDigits 10 (ds.reverse.map fun c => c.toNat - '0'.toNat) = n

/-- In the decimal system a letter is no digit. -/
theorem digitValue?_decimal (c : Char) :
    digitValue? 10 c = if c.isDigit then some (c.toNat - '0'.toNat) else none := by
  have hdigit : c.isDigit ↔ '0' ≤ c ∧ c ≤ '9' := Char.isDigit_iff_toNat
  have hletter (k : ℕ) : (some (k + 10)).filter (· < 10) = none := by
    rw [Option.filter_some, if_neg (by simp)]
  rw [digitValue?]
  by_cases h : '0' ≤ c ∧ c ≤ '9'
  · have hnine : c.toNat ≤ 57 := h.2
    have hzero : '0'.toNat = 48 := rfl
    rw [if_pos h, if_pos (hdigit.mpr h), Option.filter_some, if_pos (decide_eq_true (by omega))]
  · rw [if_neg h, if_neg (mt hdigit.mp h)]
    split
    · exact hletter _
    · split
      · exact hletter _
      · rfl

/-- The decimal digits, and the values they have. -/
theorem isDigit_decimal_iff {c : Char} {d : ℕ} :
    IsDigit 10 c d ↔ c.isDigit ∧ c.toNat - '0'.toNat = d := by
  rw [← digitValue?_eq_some_iff (by decide), digitValue?_decimal]
  by_cases h : c.isDigit
  · rw [if_pos h, Option.some.injEq, and_iff_right h]
  · rw [if_neg h]
    exact iff_of_false nofun fun hd => h hd.1

/-- In the decimal system **the value of a character** is its distance from `0`. -/
theorem isNumeralIn_decimal_iff {ds : List Char} {n : ℕ} :
    IsNumeralIn 10 ds n ↔ IsNumeral ds n := by
  have hdigit : IsDigit 10 = fun c d => c.isDigit = true ∧ c.toNat - '0'.toNat = d :=
    funext₂ fun c d => propext isDigit_decimal_iff
  have hvalues (values : List ℕ) : List.Forall₂ (IsDigit 10) ds values ↔
      (∀ c ∈ ds, c.isDigit) ∧ ds.map (fun c => c.toNat - '0'.toNat) = values := by
    rw [hdigit, List.forall₂_and_left, ← List.forall₂_eq_eq_eq, List.forall₂_map_left_iff]
  constructor
  · rintro ⟨hne, values, h, hn⟩
    obtain ⟨hdigits, rfl⟩ := (hvalues values).mp h
    exact ⟨hne, hdigits, by rwa [List.map_reverse]⟩
  · rintro ⟨hne, hdigits, hn⟩
    exact ⟨hne, _, (hvalues _).mpr ⟨hdigits, rfl⟩, by rwa [← List.map_reverse]⟩

/-- **Numerals are read**, as their values, and nothing else is. -/
theorem ofDigits?_eq_some_iff {ds : List Char} {n : ℕ} :
    ofDigits? 10 ds = some n ↔ IsNumeral ds n := by
  rw [ofDigits?_eq_some_iff_isNumeralIn (by decide), isNumeralIn_decimal_iff]

/-- A digit is no blank. -/
theorem not_isBlank_of_isDigit {c : Char} (h : c.isDigit) : ¬ isBlank c := by
  have hdigit : 48 ≤ c.toNat ∧ c.toNat ≤ 57 := Char.isDigit_iff_toNat.mp h
  simp only [isBlank, Bool.or_eq_true, Bool.and_eq_true, decide_eq_true_eq, beq_iff_eq]
  omega

end Text

open Text (Padded IsNumeral)

namespace BitRange

/-! ### Bounds and brackets -/

/-- A **numeral between blanks**, with its value. -/
def Bound (cs : List Char) (n : ℕ) : Prop := ∃ ds, Padded ds cs ∧ IsNumeral ds n

/-- A **bound** is read if it is a numeral of 32 bits between blanks. -/
theorem parseBound_eq_ok_iff {cs : List Char} {n : ℕ} :
    parseBound cs = .ok n ↔ Bound cs n ∧ n < UInt32.size := by
  have hread : Text.ofDigits? 10 (Text.trimChars cs) = some n ↔ Bound cs n := by
    rw [Text.ofDigits?_eq_some_iff]
    constructor
    · exact fun h => ⟨_, Text.padded_trimChars cs, h⟩
    · rintro ⟨ds, hpadded, h⟩
      have htrim : Text.trimChars cs = ds := Text.trimChars_eq_of_padded hpadded h.ne_nil
        (Text.not_isBlank_of_isDigit (h.digits _ (List.head_mem h.ne_nil)))
        (Text.not_isBlank_of_isDigit (h.digits _ (List.getLast_mem h.ne_nil)))
      rwa [htrim]
  rw [← hread, parseBound]
  cases Text.ofDigits? 10 (Text.trimChars cs) with
  | none => exact iff_of_false nofun nofun
  | some k =>
      dsimp only
      rw [Option.some.injEq]
      split
      · next hk =>
        rw [Except.ok.injEq]
        exact ⟨fun h => ⟨h, h ▸ hk⟩, And.left⟩
      · next hk =>
        refine iff_of_false nofun ?_
        rintro ⟨rfl, hlt⟩
        exact hk hlt

/-- Neither a digit nor a blank is a colon. -/
theorem Bound.colon_not_mem {cs : List Char} {n : ℕ} (h : Bound cs n) : ':' ∉ cs := by
  obtain ⟨ds, ⟨front, back, hfront, hback, rfl⟩, hds⟩ := h
  have hblank : ¬ Text.isBlank ':' := by decide
  simp only [List.mem_append, not_or]
  exact ⟨⟨fun hc => hblank (hfront _ hc), fun hc => absurd (hds.digits _ hc) (by decide)⟩,
    fun hc => hblank (hback _ hc)⟩

/-- What is left inside is all that stands **between the outer brackets**. -/
theorem insideBrackets?_eq_some_iff {cs inner : List Char} :
    insideBrackets? cs = some inner ↔ Padded ('[' :: inner ++ [']']) cs := by
  constructor
  · intro h
    rw [insideBrackets?] at h
    split at h
    · next rest hrest =>
      split at h
      · next hlast =>
        obtain rfl := Option.some.inj h
        have hclosed : rest.dropLast ++ [']'] = rest := List.dropLast_append_getLast? _ hlast
        rw [List.cons_append, hclosed, ← hrest]
        exact Text.padded_trimChars cs
      · nomatch h
    · nomatch h
  · intro h
    have htrim : Text.trimChars cs = '[' :: inner ++ [']'] :=
      Text.trimChars_eq_of_padded h (by simp) (by simp; decide) (by simp; decide)
    rw [insideBrackets?, htrim]
    simp

/-! ### Ranges -/

/-- The text **names the bits** from `m` down to `l`. -/
inductive Names (cs : List Char) : ℕ → ℕ → Prop
  /-- Two bounds in brackets, with a colon between them. -/
  | pair {msb lsb : List Char} {m l : ℕ} (text : Padded ('[' :: (msb ++ ':' :: lsb) ++ [']']) cs)
      (msb_bound : Bound msb m) (lsb_bound : Bound lsb l) : Names cs m l
  /-- One bound in brackets. -/
  | single {bit : List Char} {n : ℕ} (text : Padded ('[' :: bit ++ [']']) cs)
      (bound : Bound bit n) : Names cs n n

/-- Bounds in order, and within 64 bits, have **the bits from the lower one on** between them. -/
theorem between_eq_ok_iff {m l : ℕ} {span : BitSpan} :
    between m l = .ok span ↔
      l ≤ m ∧ m ≤ 63 ∧ span.offset.toNat = l ∧ span.width.toNat = m - l + 1 := by
  rw [between, maxBit]
  split
  · next hwide => exact iff_of_false nofun fun h => by omega
  · next hwide =>
    split
    · next hreversed => exact iff_of_false nofun fun h => by omega
    · next hordered =>
      obtain ⟨offset, width⟩ := span
      simp only [Except.ok.injEq, BitSpan.mk.injEq, ← UInt32.toNat_inj, UInt32.toNat_ofNat']
      omega

/-- Bounds in order, of bits of a word, **are a range**. -/
theorem exists_between {m l : ℕ} (hle : l ≤ m) (hwidth : m ≤ 63) : ∃ span, between m l = .ok span :=
  ⟨_, by rw [between, maxBit, if_neg (Nat.not_lt.mpr hwidth), if_neg (Nat.not_lt.mpr hle)]⟩

/-- The steps of the reader **find the parts** of the grammar. -/
theorem parse_eq_ok {text : String} {span : BitSpan} :
    parse text = .ok span ↔ ∃ m l, Names text.toList m l ∧ between m l = .ok span := by
  constructor
  · intro h
    rw [parse] at h
    split at h
    · nomatch h
    · next inner hinner =>
      have hpadded := insideBrackets?_eq_some_iff.mp hinner
      split at h
      · next msb lsb hsplit =>
        obtain ⟨m, hm, h⟩ := bind_eq_ok_iff.mp h
        obtain ⟨l, hl, h⟩ := bind_eq_ok_iff.mp h
        rw [(Text.splitFirstChars_eq_some_iff.mp hsplit).1] at hpadded
        exact ⟨m, l, .pair hpadded (parseBound_eq_ok_iff.mp hm).1 (parseBound_eq_ok_iff.mp hl).1, h⟩
      · obtain ⟨n, hn, h⟩ := bind_eq_ok_iff.mp h
        exact ⟨n, n, .single hpadded (parseBound_eq_ok_iff.mp hn).1, h⟩
  · rintro ⟨m, l, hnames, h⟩
    obtain ⟨hle, hwidth, -⟩ := between_eq_ok_iff.mp h
    have hread {cs : List Char} {n : ℕ} (hn : n ≤ 63) (hbound : Bound cs n) :
        parseBound cs = .ok n :=
      parseBound_eq_ok_iff.mpr ⟨hbound, Nat.lt_of_le_of_lt hn (by decide)⟩
    rw [parse]
    cases hnames with
    | pair hpadded hm hl =>
        rw [insideBrackets?_eq_some_iff.mpr hpadded]
        dsimp only
        rw [Text.splitFirstChars_append hm.colon_not_mem]
        dsimp only
        rw [hread hwidth hm, hread (hle.trans hwidth) hl]
        exact h
    | single hpadded hn =>
        rw [insideBrackets?_eq_some_iff.mpr hpadded]
        dsimp only
        rw [Text.splitFirstChars_eq_none_iff.mpr hn.colon_not_mem]
        dsimp only
        rw [hread hwidth hn]
        exact h

/-- **The accepted ranges.** A text is read as a range of bits exactly when it names the bits from
some `m` down to some `l` with `l ≤ m ≤ 63`, and then as the `m - l + 1` bits from `l` on; every
other text is rejected. A range that is read has a bit and ends within 64 bits, so that the sum of
its parts does not overflow. -/
theorem parse_eq_ok_iff (text : String) :
    (∀ span, parse text = .ok span ↔ ∃ m l, Names text.toList m l ∧ l ≤ m ∧ m ≤ 63 ∧
      span.offset.toNat = l ∧ span.width.toNat = m - l + 1) ∧
    ((∃ e, parse text = .error e) ↔ ¬ ∃ m l, Names text.toList m l ∧ l ≤ m ∧ m ≤ 63) ∧
    ∀ span, parse text = .ok span →
      1 ≤ span.width.toNat ∧ span.offset.toNat + span.width.toNat ≤ 64 ∧
        (span.offset + span.width).toNat = span.offset.toNat + span.width.toNat := by
  have hread (span : BitSpan) : parse text = .ok span ↔ ∃ m l, Names text.toList m l ∧ l ≤ m ∧
      m ≤ 63 ∧ span.offset.toNat = l ∧ span.width.toNat = m - l + 1 := by
    simp only [parse_eq_ok, between_eq_ok_iff]
  refine ⟨hread, ⟨?_, fun hnone => ?_⟩, fun span h => ?_⟩
  · rintro ⟨e, he⟩ ⟨m, l, hnames, hle, hwidth⟩
    obtain ⟨span, hspan⟩ := exists_between hle hwidth
    rw [parse_eq_ok.mpr ⟨m, l, hnames, hspan⟩] at he
    nomatch he
  · cases h : parse text with
    | error e => exact ⟨e, rfl⟩
    | ok span =>
        obtain ⟨m, l, hnames, hle, hwidth, -⟩ := (hread span).mp h
        exact absurd ⟨m, l, hnames, hle, hwidth⟩ hnone
  · obtain ⟨m, l, -, hle, hwidth, hoffset, hcount⟩ := (hread span).mp h
    rw [UInt32.toNat_add]
    omega

/-! ### A range with blanks and zeros -/

namespace PaddedRange

/-- A range with blanks of different kinds in all places, and with zeros in front of its bounds. -/
def text : String := " [\t0000000000063 :\u00a004\u3000]\n"

/-- The text names the bits 4 to 63. -/
theorem names : Names text.toList 63 4 := by
  have blank {c : Char} (h : Text.isBlank c = true) : ∀ d ∈ [c], Text.isBlank d = true :=
    List.forall_mem_singleton.mpr h
  have hmsb : Bound ('\t' :: "0000000000063".toList ++ [' ']) 63 :=
    ⟨"0000000000063".toList, ⟨['\t'], [' '], blank rfl, blank rfl, rfl⟩, by decide, by simp, rfl⟩
  have hlsb : Bound ['\u00a0', '0', '4', '\u3000'] 4 :=
    ⟨['0', '4'], ⟨['\u00a0'], ['\u3000'], blank rfl, blank rfl, rfl⟩, by decide, by simp, rfl⟩
  exact .pair ⟨[' '], ['\n'], blank rfl, blank rfl, by decide +kernel⟩ hmsb hlsb

/-- The range is read, and names the sixty bits from bit 4 on. -/
theorem parse_eq_ok_iff_padded :
    parse text = .ok ⟨4, 60⟩ ∧ (4 : UInt32).toNat + (60 : UInt32).toNat ≤ 64 := by
  obtain ⟨hread, -, hroom⟩ := parse_eq_ok_iff text
  have hparse := (hread ⟨4, 60⟩).mpr ⟨63, 4, names, by decide, by decide, rfl, rfl⟩
  exact ⟨hparse, (hroom _ hparse).2.1⟩

end PaddedRange

end BitRange

end RegisterMap
