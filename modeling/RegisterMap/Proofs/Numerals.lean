import Mathlib.Data.List.Forall2
import Mathlib.Data.Nat.Digits.Defs
import Mathlib.Tactic.Ring
import RegisterMap.Text.Numeral

/-!
# Numerals Read Back

A numeral in a radix is a string of its digits, in letters of either case, that is not empty. What
is read as a number are just the numerals, each as the sum of its digits' place values. So the
digits that a number is written with, with or without zeros in front, are read as that number.

## Main results

* `Text.ofDigits?_eq_some_iff_isNumeralIn`: which texts are read in a radix up to sixteen, and as
  which number.
* `Text.ofPlusDigits?_eq_some_iff`: a plus sign in front of a numeral is skipped.
* `Text.ofDigits?_toDigits`: digits in any radix up to sixteen read back.
* `Text.ofDigits?_padLeft`: so do digits that are filled up with zeros.
* `Text.padLeft_hexDigits_injective`: hexadecimal digits of one width tell numbers apart.
* `Text.head_toDigits_ne_zero`: nothing but zero itself is written with a zero in front.
-/

namespace RegisterMap.Text

/-! ### What is read -/

/-- The character is the **digit** of the radix with this value; letters are of either case. -/
def IsDigit (b : Nat) (c : Char) (d : Nat) : Prop :=
  d < b ∧ (c = Nat.digitChar d ∨ c = (Nat.digitChar d).toUpper)

/-- A string of **digits in a radix** with its value, the sum of the digits' place values. -/
structure IsNumeralIn (b : Nat) (ds : List Char) (n : Nat) : Prop where
  ne_nil : ds ≠ []
  value : ∃ values, List.Forall₂ (IsDigit b) ds values ∧ Nat.ofDigits b values.reverse = n

/-- A numeral holds **digits only**. -/
theorem IsNumeralIn.exists_isDigit {b n : Nat} {ds : List Char} (h : IsNumeralIn b ds n) {c : Char}
    (hc : c ∈ ds) : ∃ d, IsDigit b c d := by
  obtain ⟨values, hvalues, -⟩ := h.value
  obtain ⟨i, hi, rfl⟩ := List.getElem_of_mem hc
  have hi' : i < values.length := hvalues.length_eq ▸ hi
  exact ⟨values[i], hvalues.get hi hi'⟩

/-- Decimal digits are no letters. -/
theorem IsNumeralIn.not_isAlpha {n : Nat} {ds : List Char} (h : IsNumeralIn 10 ds n) :
    ∀ c ∈ ds, ¬ c.isAlpha := by
  intro c hc
  have hdigits : ∀ d < 10, ¬ (Nat.digitChar d).isAlpha ∧ ¬ (Nat.digitChar d).toUpper.isAlpha := by
    decide
  obtain ⟨d, hd, rfl | rfl⟩ := h.exists_isDigit hc
  · exact (hdigits d hd).1
  · exact (hdigits d hd).2

section Digits

variable {b : Nat} (hb' : b ≤ 16)

include hb'

/-- The digits of the radix have **their values**, and nothing else has one. -/
theorem digitValue?_eq_some_iff {c : Char} {d : Nat} :
    digitValue? b c = some d ↔ IsDigit b c d := by
  constructor
  · intro h
    have hten : ∀ d < 10, (Nat.digitChar d).toNat = 48 + d := by decide
    have hletter : ∀ d < 16, 10 ≤ d → (Nat.digitChar d).toNat = 87 + d ∧
        (Nat.digitChar d).toUpper.toNat = 55 + d := by decide
    rw [digitValue?, Option.filter_eq_some_iff, decide_eq_true_eq] at h
    obtain ⟨hvalue, hd⟩ := h
    refine ⟨hd, ?_⟩
    rw [← Char.toNat_inj, ← Char.toNat_inj]
    split at hvalue
    · next hc =>
      have hrange : 48 ≤ c.toNat ∧ c.toNat ≤ 57 := hc
      have hvalue : c.toNat - 48 = d := Option.some.inj hvalue
      have := hten d (by omega)
      omega
    · split at hvalue
      · next hc =>
        have hrange : 97 ≤ c.toNat ∧ c.toNat ≤ 122 := hc
        have hvalue : c.toNat - 97 + 10 = d := Option.some.inj hvalue
        have := hletter d (by omega) (by omega)
        omega
      · split at hvalue
        · next hc =>
          have hrange : 65 ≤ c.toNat ∧ c.toNat ≤ 90 := hc
          have hvalue : c.toNat - 65 + 10 = d := Option.some.inj hvalue
          have := hletter d (by omega) (by omega)
          omega
        · nomatch hvalue
  · rintro ⟨hd, hc⟩
    have hvalue : ∀ b ≤ 16, ∀ d < b, digitValue? b (Nat.digitChar d) = some d ∧
        digitValue? b (Nat.digitChar d).toUpper = some d := by decide
    rcases hc with rfl | rfl
    · exact (hvalue b hb' d hd).1
    · exact (hvalue b hb' d hd).2

/-- Digits are appended to a numeral **in its last places**. -/
theorem appendDigits?_eq_some_iff {acc n : Nat} {ds : List Char} :
    appendDigits? b acc ds = some n ↔ ∃ values, List.Forall₂ (IsDigit b) ds values ∧
      Nat.ofDigits b values.reverse + b ^ ds.length * acc = n := by
  induction ds generalizing acc with
  | nil => simp [appendDigits?]
  | cons c ds ih =>
    have hplace (values : List Nat) (d : Nat) (h : values.length = ds.length) :
        Nat.ofDigits b (d :: values).reverse + b ^ (c :: ds).length * acc =
          Nat.ofDigits b values.reverse + b ^ ds.length * (acc * b + d) := by
      rw [List.reverse_cons, Nat.ofDigits_append, Nat.ofDigits_singleton, List.length_reverse, h,
        List.length_cons, Nat.pow_succ]
      ring
    rw [appendDigits?, Option.bind_eq_bind, Option.bind_eq_some_iff]
    simp only [digitValue?_eq_some_iff hb', ih, List.forall₂_cons_left_iff]
    constructor
    · rintro ⟨d, hd, values, hvalues, hn⟩
      refine ⟨d :: values, ⟨d, values, hd, hvalues, rfl⟩, ?_⟩
      rw [hplace values d hvalues.length_eq.symm, hn]
    · rintro ⟨_, ⟨d, values, hd, hvalues, rfl⟩, hn⟩
      refine ⟨d, hd, values, hvalues, ?_⟩
      rw [← hplace values d hvalues.length_eq.symm, hn]

/-- **Numerals are read**, as their values, and nothing else is. -/
theorem ofDigits?_eq_some_iff_isNumeralIn {ds : List Char} {n : Nat} :
    ofDigits? b ds = some n ↔ IsNumeralIn b ds n := by
  cases ds with
  | nil => exact iff_of_false nofun fun h => h.ne_nil rfl
  | cons c cs =>
    rw [ofDigits?, appendDigits?_eq_some_iff hb', Nat.mul_zero]
    exact ⟨fun h => ⟨List.cons_ne_nil c cs, h⟩, fun h => h.value⟩

/-- A digit is a letter or a decimal digit. -/
theorem IsDigit.isAlphanum {c : Char} {d : Nat} (h : IsDigit b c d) : c.isAlphanum := by
  have hdigits : ∀ d < 16, (Nat.digitChar d).isAlphanum ∧ (Nat.digitChar d).toUpper.isAlphanum := by
    decide
  obtain ⟨hsmall, hcapital⟩ := hdigits d (by have := h.1; omega)
  rcases h.2 with rfl | rfl
  · exact hsmall
  · exact hcapital

/-- A numeral consists of letters and decimal digits. -/
theorem IsNumeralIn.isAlphanum {ds : List Char} {n : Nat} (h : IsNumeralIn b ds n) :
    ∀ c ∈ ds, c.isAlphanum := by
  intro c hc
  obtain ⟨d, hd⟩ := h.exists_isDigit hc
  exact hd.isAlphanum hb'

/-- Digits are read **with or without** a plus sign in front of them. -/
theorem ofPlusDigits?_eq_some_iff {ds : List Char} {n : Nat} :
    ofPlusDigits? b ds = some n ↔
      ∃ digits, IsNumeralIn b digits n ∧ (ds = digits ∨ ds = '+' :: digits) := by
  rw [ofPlusDigits?.eq_def]
  split
  · next digits =>
    rw [ofDigits?_eq_some_iff_isNumeralIn hb']
    constructor
    · exact fun h => ⟨digits, h, .inr rfl⟩
    · rintro ⟨_, h, rfl | hplus⟩
      · exact absurd (h.isAlphanum hb' '+' (by simp)) (by decide)
      · obtain ⟨-, rfl⟩ := List.cons.inj hplus
        exact h
  · next hunsigned =>
    rw [ofDigits?_eq_some_iff_isNumeralIn hb']
    constructor
    · exact fun h => ⟨ds, h, .inl rfl⟩
    · rintro ⟨digits, h, rfl | rfl⟩
      · exact h
      · exact absurd rfl (hunsigned digits)

end Digits

section Radix

variable {b : Nat} (hb : 1 < b) (hb' : b ≤ 16)

include hb' in
/-- A value that is below the radix comes back from its digit. -/
theorem digitValue?_digitChar {d : Nat} (hd : d < b) :
    digitValue? b (Nat.digitChar d) = some d :=
  (digitValue?_eq_some_iff hb').mpr ⟨hd, .inl rfl⟩

/-- Digits are read one after another. -/
theorem appendDigits?_append (n : Nat) (ds es : List Char) :
    appendDigits? b n (ds ++ es) = (appendDigits? b n ds).bind (appendDigits? b · es) := by
  induction ds generalizing n with
  | nil => rfl
  | cons d ds ih =>
    cases hd : digitValue? b d with
    | none => simp [appendDigits?, hd]
    | some v => simp [appendDigits?, hd, ih]

include hb hb' in
/-- The digits of a number are read as **this number**. -/
theorem appendDigits?_toDigits (n : Nat) : appendDigits? b 0 (Nat.toDigits b n) = some n := by
  induction n using Nat.strongRecOn with
  | ind n ih =>
    rw [Nat.toDigits_eq_if hb]
    split
    next hlt => simp [appendDigits?, digitValue?_digitChar hb' hlt]
    next hge =>
      have hdiv : n / b < n := Nat.div_lt_self (by omega) hb
      have hmod : n % b < b := Nat.mod_lt n (by omega)
      have hn : n / b * b + n % b = n := Nat.div_add_mod' n b
      rw [appendDigits?_append, ih (n / b) hdiv]
      simp [appendDigits?, digitValue?_digitChar hb' hmod, hn]

/-- Zeros in front do not count. -/
theorem appendDigits?_zeros (hb : 1 < b) (k : Nat) (ds : List Char) :
    appendDigits? b 0 (List.replicate k '0' ++ ds) = appendDigits? b 0 ds := by
  have hzero : digitValue? b '0' = some 0 := by
    simp [digitValue?, Option.filter]
    omega
  induction k with
  | zero => rfl
  | succ k ih =>
    rw [List.replicate_succ, List.cons_append, appendDigits?, hzero, ← ih]
    simp

/-- A text that is not empty is read digit by digit. -/
theorem ofDigits?_of_ne_nil {ds : List Char} (h : ds ≠ []) :
    ofDigits? b ds = appendDigits? b 0 ds := by
  cases ds with
  | nil => exact absurd rfl h
  | cons c cs => rfl

include hb hb'

/-- **Digits read back** as the number they were written for. -/
theorem ofDigits?_toDigits (n : Nat) : ofDigits? b (Nat.toDigits b n) = some n := by
  rw [ofDigits?_of_ne_nil Nat.toDigits_ne_nil, appendDigits?_toDigits hb hb']

/-- So are digits that are **filled up with zeros**. -/
theorem ofDigits?_padLeft (width n : Nat) :
    ofDigits? b (padLeft '0' width (String.ofList (Nat.toDigits b n))).toList = some n := by
  have hlist : (padLeft '0' width (String.ofList (Nat.toDigits b n))).toList =
      List.replicate (width - (Nat.toDigits b n).length) '0' ++ Nat.toDigits b n := by
    simp [padLeft]
  have hne : List.replicate (width - (Nat.toDigits b n).length) '0' ++ Nat.toDigits b n ≠ [] := by
    simp [Nat.toDigits_ne_nil]
  rw [hlist, ofDigits?_of_ne_nil hne, appendDigits?_zeros hb, appendDigits?_toDigits hb hb']

end Radix

/-- Decimal digits have no zero in front, unless they are those of zero. -/
theorem head_toDigits_ne_zero {n : Nat} (h : 0 < n) {c : Char} {cs : List Char}
    (hcs : Nat.toDigits 10 n = c :: cs) : c ≠ '0' := by
  induction n using Nat.strongRecOn generalizing cs with
  | ind n ih =>
    rw [Nat.toDigits_eq_if (by decide)] at hcs
    split at hcs
    next hlt =>
      obtain ⟨rfl, -⟩ := List.cons.inj hcs
      have hdigit : ∀ k < 10, 0 < k → Nat.digitChar k ≠ '0' := by decide
      exact hdigit n hlt h
    next hge =>
      have hpos : 0 < n / 10 := by omega
      cases hq : Nat.toDigits 10 (n / 10) with
      | nil => exact absurd hq Nat.toDigits_ne_nil
      | cons d ds =>
        rw [hq] at hcs
        obtain ⟨rfl, -⟩ := List.cons.inj hcs
        exact ih (n / 10) (by omega) hpos hq

/-! ### Hexadecimal digits of one width -/

/-- Filling up makes a numeral as wide as asked for, unless it is wider. -/
theorem length_padLeft_hexDigits {width n : Nat} (hw : 0 < width) (h : n < 16 ^ width) :
    (padLeft '0' width (hexDigits n)).toList.length = width := by
  have hle : (Nat.toDigits 16 n).length ≤ width := by
    rwa [Nat.length_toDigits_le_iff (by decide) hw]
  simp only [padLeft, hexDigits, String.toList_append, String.toList_ofList, List.length_append,
    List.length_replicate, String.length_ofList]
  omega

/-- Hexadecimal digits that are filled up tell **which number they are of**. -/
theorem padLeft_hexDigits_injective {width m n : Nat}
    (h : padLeft '0' width (hexDigits m) = padLeft '0' width (hexDigits n)) : m = n := by
  have hread : ∀ k, ofDigits? 16 (padLeft '0' width (hexDigits k)).toList = some k :=
    fun k => ofDigits?_padLeft (by decide) (by decide) width k
  have hm := hread m
  rw [h, hread n] at hm
  exact (Option.some.inj hm).symm

end RegisterMap.Text
