import RegisterMap.Proofs.BitRanges
import RegisterMap.Proofs.Numerals
import RegisterMap.Text.Literal

/-!
# The Grammar of Numeric Literals

A literal is read by trimming, dropping the separators, folding letter case, looking at the first
two characters and reading digits. What it accepts is said here without any of these steps: a text
**denotes** a number if, without the blanks at its ends and without separators, it is the prefix of
a radix and a numeral in that radix, in letters of either case. No prefix is that of the decimal
system.

Literals are documented as unsigned. A minus sign in front is turned down, and behind a prefix it is
no digit. But digits are read in the way integers are, with at most one plus sign in front of them,
and nothing looks for that sign. So a plus sign right before the digits is skipped, behind a prefix
too, and the texts with one are all that is read beyond the documented literals.

A literal consists of letters and digits. So it holds no blank, and trimming stops at its own ends;
and a decimal one holds no letter, so its radix is not taken for another.

## Main results

* `Text.digitValue?_toLower`: letter case does not matter to digits.
* `Literal.radixOf_eq`, `Literal.exists_radixPrefix`: the radix is that of the prefix.
* `Literal.significant_eq_iff`: trimming and dropping separators leave what is denoted.
* `Literal.parse_eq_ok_iff_denotes`: which texts are read, and as which number.
-/

namespace RegisterMap

namespace Text

/-! ### Letter case -/

/-- Capitals are in **one range**. -/
theorem isUpper_iff_toNat {c : Char} : c.isUpper ↔ 65 ≤ c.toNat ∧ c.toNat ≤ 90 := by
  have hupper : c.isUpper = decide (65 ≤ c.toNat ∧ c.toNat ≤ 90) := rfl
  rw [hupper, decide_eq_true_iff]

/-- Small letters are in **one range**, too. -/
theorem isLower_iff_toNat {c : Char} : c.isLower ↔ 97 ≤ c.toNat ∧ c.toNat ≤ 122 := by
  have hlower : c.isLower = (decide (97 ≤ c.toNat) && decide (c.toNat ≤ 122)) := rfl
  rw [hlower, Bool.and_eq_true, decide_eq_true_iff, decide_eq_true_iff]

/-- A small letter stands **32 places behind** its capital, and leads back to it. -/
theorem toLower_of_isUpper {c : Char} (h : c.isUpper) :
    c.toLower.toNat = c.toNat + 32 ∧ c.toLower.toUpper = c := by
  have hletters : ∀ n ≤ 90, 65 ≤ n → (Char.ofNat n).toLower.toNat = n + 32 ∧
      (Char.ofNat n).toLower.toUpper = Char.ofNat n := by decide
  obtain ⟨hge, hle⟩ := isUpper_iff_toNat.mp h
  have hletter := hletters c.toNat hle hge
  rwa [Char.ofNat_toNat] at hletter

/-- Whatever is **no capital** is its own small letter. -/
theorem toLower_of_not_isUpper {c : Char} (h : ¬ c.isUpper) : c.toLower = c :=
  dif_neg fun hrange => h (isUpper_iff_toNat.mpr hrange)

/-- What is no letter is no capital. -/
theorem toLower_of_not_isAlpha {c : Char} (h : ¬ c.isAlpha) : c.toLower = c :=
  toLower_of_not_isUpper fun hupper => h (Bool.or_eq_true_iff.mpr (.inl hupper))

/-- A letter is the small one **or its capital**. -/
theorem eq_or_eq_toUpper_of_toLower_eq {c d : Char} (h : c.toLower = d) :
    c = d ∨ c = d.toUpper := by
  subst h
  by_cases hc : c.isUpper
  · exact .inr (toLower_of_isUpper hc).2.symm
  · exact .inl (toLower_of_not_isUpper hc).symm

/-- Digits have their values **in letters of either case**. -/
theorem digitValue?_toLower (b : ℕ) (c : Char) : digitValue? b c.toLower = digitValue? b c := by
  by_cases hupper : c.isUpper
  · -- A capital and its small letter stand in different ranges, equally far from the start.
    have hle (d e : Char) : d ≤ e ↔ d.toNat ≤ e.toNat := Iff.rfl
    have h0 : '0'.toNat = 48 := rfl
    have h9 : '9'.toNat = 57 := rfl
    have ha : 'a'.toNat = 97 := rfl
    have hz : 'z'.toNat = 122 := rfl
    have hA : 'A'.toNat = 65 := rfl
    have hZ : 'Z'.toNat = 90 := rfl
    have hrange : 65 ≤ c.toNat ∧ c.toNat ≤ 90 := isUpper_iff_toNat.mp hupper
    have hsmall : c.toLower.toNat = c.toNat + 32 := (toLower_of_isUpper hupper).1
    have hvalue : c.toNat + 32 - 97 + 10 = c.toNat - 65 + 10 := by omega
    simp only [digitValue?, hle, hsmall, h0, h9, ha, hz, hA, hZ]
    rw [if_neg (by omega), if_pos (by omega), if_neg (by omega), if_neg (by omega), if_pos hrange,
      hvalue]
  · rw [toLower_of_not_isUpper hupper]

/-- A numeral has its value in letters of either case. -/
theorem ofDigits?_map_toLower (b : ℕ) (ds : List Char) :
    ofDigits? b (ds.map Char.toLower) = ofDigits? b ds := by
  have happend (acc : ℕ) : appendDigits? b acc (ds.map Char.toLower) = appendDigits? b acc ds := by
    induction ds generalizing acc with
    | nil => rfl
    | cons c ds ih => simp only [List.map_cons, appendDigits?, digitValue?_toLower, ih]
  cases ds with
  | nil => rfl
  | cons c ds => exact happend 0

/-- Where there is no plus sign, none is skipped. -/
theorem ofPlusDigits?_of_ne {c : Char} (h : c ≠ '+') (b : ℕ) (ds : List Char) :
    ofPlusDigits? b (c :: ds) = ofDigits? b (c :: ds) := by
  rw [ofPlusDigits?.eq_def]
  split
  · next hcons => exact absurd (List.cons.inj hcons).1 h
  · rfl

/-- A numeral with a plus sign has its value in letters of either case. -/
theorem ofPlusDigits?_map_toLower (b : ℕ) (ds : List Char) :
    ofPlusDigits? b (ds.map Char.toLower) = ofPlusDigits? b ds := by
  cases ds with
  | nil => rfl
  | cons c ds =>
    by_cases hc : c = '+'
    · subst hc
      exact ofDigits?_map_toLower b ds
    · have hlower : c.toLower ≠ '+' := by
        intro h
        rcases eq_or_eq_toUpper_of_toLower_eq h with rfl | rfl
        · exact hc rfl
        · exact hc (by decide)
      rw [ofPlusDigits?_of_ne hc, List.map_cons, ofPlusDigits?_of_ne hlower, ← List.map_cons,
        ofDigits?_map_toLower]

/-- Letters and digits are **no blanks**. -/
theorem not_isBlank_of_isAlphanum {c : Char} (h : c.isAlphanum) : ¬ isBlank c := by
  have hranges : (c.isUpper || c.isLower || c.isDigit) = true := h
  rw [Bool.or_eq_true, Bool.or_eq_true, isUpper_iff_toNat, isLower_iff_toNat,
    Char.isDigit_iff_toNat] at hranges
  have h0 : '0'.toNat = 48 := rfl
  have h9 : '9'.toNat = 57 := rfl
  simp only [isBlank, Bool.or_eq_true, Bool.and_eq_true, decide_eq_true_eq, beq_iff_eq]
  omega

end Text

open Text (Padded IsNumeralIn)

namespace Literal

/-! ### Prefixes -/

/-- The characters are the **prefix** of the radix. -/
inductive RadixPrefix : List Char → ℕ → Prop
  | decimal : RadixPrefix [] 10
  | hexadecimal {c : Char} (letter : c = 'x' ∨ c = 'X') : RadixPrefix ['0', c] 16
  | octal {c : Char} (letter : c = 'o' ∨ c = 'O') : RadixPrefix ['0', c] 8
  | binary {c : Char} (letter : c = 'b' ∨ c = 'B') : RadixPrefix ['0', c] 2

/-- No radix is above sixteen. -/
theorem RadixPrefix.le_sixteen {front : List Char} {b : ℕ} (h : RadixPrefix front b) : b ≤ 16 := by
  cases h <;> decide

/-- The prefix of a radix consists of letters and digits. -/
theorem RadixPrefix.isAlphanum {front : List Char} {b : ℕ} (h : RadixPrefix front b) :
    ∀ c ∈ front, c.isAlphanum := by
  have hpair {c : Char} (hc : c.isAlphanum) : ∀ d ∈ ['0', c], d.isAlphanum :=
    List.forall_mem_cons.mpr ⟨by decide, List.forall_mem_singleton.mpr hc⟩
  cases h with
  | decimal => exact nofun
  | hexadecimal letter | octal letter | binary letter =>
    rcases letter with rfl | rfl <;> exact hpair (by decide)

/-- What starts with a zero and a letter **in small letters** does so in letters of either case. -/
theorem exists_eq_cons_of_map_toLower {cs ds : List Char} {d : Char}
    (h : cs.map Char.toLower = '0' :: d :: ds) :
    ∃ d' ds', cs = '0' :: d' :: ds' ∧ (d' = d ∨ d' = d.toUpper) ∧ ds = ds'.map Char.toLower := by
  obtain ⟨c, rest, rfl, hc, hrest⟩ := List.map_eq_cons_iff.mp h
  obtain ⟨d', ds', rfl, hd, hds⟩ := List.map_eq_cons_iff.mp hrest
  have hzero : c = '0' := by
    rcases Text.eq_or_eq_toUpper_of_toLower_eq hc with rfl | rfl
    · rfl
    · decide
  exact ⟨d', ds', by rw [hzero], Text.eq_or_eq_toUpper_of_toLower_eq hd, hds.symm⟩

/-- A text **starts with the prefix** of the radix that is chosen for it. -/
theorem exists_radixPrefix (cs : List Char) :
    ∃ front ds, RadixPrefix front (radixOf (cs.map Char.toLower)).1 ∧ cs = front ++ ds ∧
      (radixOf (cs.map Char.toLower)).2 = ds.map Char.toLower := by
  rw [radixOf.eq_def]
  split
  · next h =>
    obtain ⟨d, ds, rfl, hd, rfl⟩ := exists_eq_cons_of_map_toLower h
    exact ⟨['0', d], ds, .hexadecimal hd, rfl, rfl⟩
  · next h =>
    obtain ⟨d, ds, rfl, hd, rfl⟩ := exists_eq_cons_of_map_toLower h
    exact ⟨['0', d], ds, .binary hd, rfl, rfl⟩
  · next h =>
    obtain ⟨d, ds, rfl, hd, rfl⟩ := exists_eq_cons_of_map_toLower h
    exact ⟨['0', d], ds, .octal hd, rfl, rfl⟩
  · exact ⟨[], cs, .decimal, rfl, rfl⟩

/-- A text without letters is **decimal**. -/
theorem radixOf_of_not_isAlpha {cs : List Char} (h : ∀ c ∈ cs, ¬ c.isAlpha) :
    radixOf cs = (10, cs) := by
  rw [radixOf.eq_def]
  split
  · exact absurd (by decide) (h 'x' (by simp))
  · exact absurd (by decide) (h 'b' (by simp))
  · exact absurd (by decide) (h 'o' (by simp))
  · rfl

/-- A prefix **chooses its radix**; what has none must not be taken for another. -/
theorem radixOf_eq {front ds : List Char} {b : ℕ} (h : RadixPrefix front b)
    (hdecimal : b = 10 → ∀ c ∈ ds, ¬ c.isAlpha) :
    radixOf ((front ++ ds).map Char.toLower) = (b, ds.map Char.toLower) := by
  cases h with
  | decimal =>
    refine radixOf_of_not_isAlpha fun c hc halpha => ?_
    obtain ⟨d, hd, rfl⟩ := List.mem_map.mp hc
    rw [Text.toLower_of_not_isAlpha (hdecimal rfl d hd)] at halpha
    exact hdecimal rfl d hd halpha
  | hexadecimal letter | octal letter | binary letter => rcases letter with rfl | rfl <;> rfl

/-! ### Literals -/

/-- The characters are a prefix and a numeral in its radix, **with a sign between them**, and the
numeral has this value. -/
def Spells (sign cs : List Char) (n : ℕ) : Prop :=
  ∃ front b digits, RadixPrefix front b ∧ IsNumeralIn b digits n ∧ cs = front ++ sign ++ digits

/-- The text is a literal with this sign, **between blanks and with separators** anywhere in it. -/
def Denotes (sign : List Char) (text : String) (n : ℕ) : Prop :=
  ∃ inner, Padded inner text.toList ∧ Spells sign (inner.filter (· ≠ '_')) n

section Reading

variable {sign cs : List Char} {text : String} {n : ℕ}

/-- A literal is not empty. -/
theorem Spells.ne_nil (h : Spells sign cs n) : cs ≠ [] := by
  obtain ⟨front, b, digits, -, hdigits, rfl⟩ := h
  simp [hdigits.ne_nil]

/-- Besides its sign, a literal has **letters and digits** only. -/
theorem Spells.isAlphanum (h : Spells sign cs n) : ∀ c ∈ cs, c ∈ sign ∨ c.isAlphanum := by
  obtain ⟨front, b, digits, hfront, hdigits, rfl⟩ := h
  intro c hc
  rw [List.mem_append, List.mem_append] at hc
  rcases hc with (hc | hc) | hc
  · exact .inr (hfront.isAlphanum c hc)
  · exact .inl hc
  · exact .inr (hdigits.isAlphanum hfront.le_sixteen c hc)

/-- A sign that is no letter leaves **the radix of the prefix** and what stands behind it. -/
theorem Spells.radixOf_eq (h : Spells sign cs n) (hsign : ∀ c ∈ sign, ¬ c.isAlpha) :
    ∃ b digits, b ≤ 16 ∧ IsNumeralIn b digits n ∧
      radixOf (cs.map Char.toLower) = (b, (sign ++ digits).map Char.toLower) := by
  obtain ⟨front, b, digits, hfront, hdigits, rfl⟩ := h
  refine ⟨b, digits, hfront.le_sixteen, hdigits, ?_⟩
  rw [List.append_assoc]
  refine Literal.radixOf_eq hfront ?_
  rintro rfl c hc
  rcases List.mem_append.mp hc with hc | hc
  · exact hsign c hc
  · exact hdigits.not_isAlpha c hc

/-- The last two steps read **what is spelled**, with or without a plus sign. -/
theorem ofPlusDigits?_radixOf_iff :
    Text.ofPlusDigits? (radixOf (cs.map Char.toLower)).1 (radixOf (cs.map Char.toLower)).2 =
      some n ↔ Spells [] cs n ∨ Spells ['+'] cs n := by
  constructor
  · intro h
    obtain ⟨front, ds, hfront, hcs, hds⟩ := exists_radixPrefix cs
    rw [hds, Text.ofPlusDigits?_map_toLower, Text.ofPlusDigits?_eq_some_iff hfront.le_sixteen] at h
    obtain ⟨digits, hdigits, rfl | rfl⟩ := h
    · exact .inl ⟨front, _, ds, hfront, hdigits, by simpa using hcs⟩
    · exact .inr ⟨front, _, digits, hfront, hdigits, by simpa using hcs⟩
  · rintro (h | h)
    · obtain ⟨b, digits, hb, hdigits, hradix⟩ := h.radixOf_eq nofun
      rw [hradix, Text.ofPlusDigits?_map_toLower, Text.ofPlusDigits?_eq_some_iff hb]
      exact ⟨digits, hdigits, .inl rfl⟩
    · obtain ⟨b, digits, hb, hdigits, hradix⟩ :=
        h.radixOf_eq (List.forall_mem_singleton.mpr (by decide))
      rw [hradix, Text.ofPlusDigits?_map_toLower, Text.ofPlusDigits?_eq_some_iff hb]
      exact ⟨digits, hdigits, .inr rfl⟩

/-- Trimming and dropping the separators leave **what is not blank** between blanks. -/
theorem significant_eq_iff (hne : cs ≠ []) (hblank : ∀ c ∈ cs, ¬ Text.isBlank c) :
    significant text = cs ↔ ∃ inner, Padded inner text.toList ∧ inner.filter (· ≠ '_') = cs := by
  constructor
  · exact fun h => ⟨_, Text.padded_trimChars _, h⟩
  · rintro ⟨inner, hpadded, rfl⟩
    have hinner : ∀ c ∈ inner, ¬ Text.isBlank c := by
      intro c hc
      by_cases hsep : c = '_'
      · subst hsep
        decide
      · exact hblank c (List.mem_filter.mpr ⟨hc, decide_eq_true hsep⟩)
    have hne : inner ≠ [] := by
      rintro rfl
      exact hne rfl
    rw [significant, Text.trimChars_eq_of_padded hpadded hne (hinner _ (List.head_mem hne))
      (hinner _ (List.getLast_mem hne))]

/-- A text denotes **what its significant characters spell**. -/
theorem denotes_iff (hsign : ∀ c ∈ sign, ¬ Text.isBlank c) :
    Denotes sign text n ↔ Spells sign (significant text) n := by
  constructor
  · rintro ⟨inner, hpadded, h⟩
    have hblank : ∀ c ∈ inner.filter (· ≠ '_'), ¬ Text.isBlank c := by
      intro c hc
      rcases h.isAlphanum c hc with hc | hc
      · exact hsign c hc
      · exact Text.not_isBlank_of_isAlphanum hc
    rwa [(significant_eq_iff h.ne_nil hblank).mpr ⟨inner, hpadded, rfl⟩]
  · exact fun h => ⟨_, Text.padded_trimChars _, h⟩

/-- A literal **is read as its value** if that has 64 bits. -/
theorem parse_eq_ok_iff_spells {v : UInt64} :
    parse text = .ok v ↔
      Spells [] (significant text) v.toNat ∨ Spells ['+'] (significant text) v.toNat := by
  rw [parse]
  split
  · next hnil =>
    rw [hnil]
    exact iff_of_false nofun fun h => h.elim (·.ne_nil rfl) (·.ne_nil rfl)
  · next rest hminus =>
    rw [hminus]
    have hnone {sign : List Char} (hsign : '-' ∉ sign) : ¬ Spells sign ('-' :: rest) v.toNat := by
      intro h
      rcases h.isAlphanum '-' List.mem_cons_self with hc | hc
      · exact hsign hc
      · exact absurd hc (by decide)
    exact iff_of_false nofun fun h => h.elim (hnone (by decide)) (hnone (by decide))
  · rw [← ofPlusDigits?_radixOf_iff]
    dsimp only
    split
    · next k hk =>
      rw [hk, Option.some.injEq]
      split
      · next hlt =>
        rw [Except.ok.injEq, ← UInt64.toNat_inj, UInt64.toNat_ofNat_of_lt' hlt]
      · next hlt =>
        refine iff_of_false nofun ?_
        rintro rfl
        exact hlt v.toNat_lt
    · next hnone =>
      rw [hnone]
      exact iff_of_false nofun nofun

/-- Plus signs occur **only as the sign** of what is denoted. -/
theorem Denotes.plus_mem_iff (h : Denotes sign text n) : '+' ∈ text.toList ↔ '+' ∈ sign := by
  obtain ⟨inner, ⟨front, back, hfront, hback, htext⟩, front', b, digits, hradix, hdigits, hcs⟩ := h
  have hblank : ¬ Text.isBlank '+' := by decide
  have halphanum : ¬ '+'.isAlphanum := by decide
  have hinner : '+' ∈ inner ↔ '+' ∈ inner.filter (· ≠ '_') := by simp
  rw [htext, List.mem_append, List.mem_append, hinner, hcs, List.mem_append, List.mem_append]
  constructor
  · rintro ((hc | (hc | hc) | hc) | hc)
    · exact absurd (hfront _ hc) hblank
    · exact absurd (hradix.isAlphanum _ hc) halphanum
    · exact hc
    · exact absurd (hdigits.isAlphanum hradix.le_sixteen _ hc) halphanum
    · exact absurd (hback _ hc) hblank
  · exact fun hc => .inl (.inr (.inl (.inr hc)))

/-- What is read is what is denoted, **with a plus sign before the digits or without**. -/
theorem parse_eq_ok_iff_or {v : UInt64} :
    parse text = .ok v ↔ Denotes [] text v.toNat ∨ Denotes ['+'] text v.toNat := by
  have hplus : ∀ c ∈ ['+'], ¬ Text.isBlank c := List.forall_mem_singleton.mpr (by decide)
  rw [parse_eq_ok_iff_spells, denotes_iff (List.forall_mem_nil _), denotes_iff hplus]

end Reading

/-- **The accepted literals.** A text is read as a number exactly when it denotes the number, or
denotes it with a plus sign in front of the digits; every text that denotes no number of 64 bits in
one of the two ways is rejected. The documented literals are those without a sign, so a text is
treated as documented unless it denotes a number of 64 bits with a plus sign. -/
theorem parse_eq_ok_iff_denotes (text : String) :
    (∀ v, parse text = .ok v ↔ Denotes [] text v.toNat ∨ Denotes ['+'] text v.toNat) ∧
    ((∃ e, parse text = .error e) ↔
      ¬ ∃ n < UInt64.size, Denotes [] text n ∨ Denotes ['+'] text n) ∧
    ((∀ v, parse text = .ok v ↔ Denotes [] text v.toNat) ↔
      ¬ ∃ n < UInt64.size, Denotes ['+'] text n) := by
  refine ⟨fun v => parse_eq_ok_iff_or, ⟨?_, fun hnone => ?_⟩, fun hexact => ?_, fun hnone v => ?_⟩
  · rintro ⟨e, he⟩ ⟨n, hn, h⟩
    rw [← UInt64.toNat_ofNat_of_lt' hn] at h
    rw [parse_eq_ok_iff_or.mpr h] at he
    nomatch he
  · cases h : parse text with
    | error e => exact ⟨e, rfl⟩
    | ok v => exact absurd ⟨v.toNat, v.toNat_lt, parse_eq_ok_iff_or.mp h⟩ hnone
  · rintro ⟨n, hn, h⟩
    rw [← UInt64.toNat_ofNat_of_lt' hn] at h
    have hunsigned := (hexact _).mp (parse_eq_ok_iff_or.mpr (.inr h))
    exact absurd (hunsigned.plus_mem_iff.mp (h.plus_mem_iff.mpr List.mem_cons_self)) nofun
  · have hsigned : ¬ Denotes ['+'] text v.toNat := fun h => hnone ⟨v.toNat, v.toNat_lt, h⟩
    rw [parse_eq_ok_iff_or, or_iff_left hsigned]

/-! ### A sign behind the prefix -/

namespace SignedHex

/-- A hexadecimal literal with a plus sign in front of its only digit. -/
def text : String := "0x+5"

/-- The text is **read as a number**, although no documented literal has a sign. -/
theorem not_all_documented :
    ¬ ∀ text v, parse text = .ok v ↔ Denotes [] text v.toNat := by
  intro hexact
  have hparse : parse text = .ok 5 := by decide +kernel
  have hsign : '+' ∈ text.toList := by decide +kernel
  exact absurd (((hexact text 5).mp hparse).plus_mem_iff.mp hsign) nofun

end SignedHex

end Literal

end RegisterMap
