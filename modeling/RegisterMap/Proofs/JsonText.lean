import Mathlib.Algebra.Ring.Int.Defs
import Mathlib.Data.List.Basic
import Mathlib.Data.Option.Basic
import RegisterMap.Json.Reading
import RegisterMap.Proofs.Numerals

/-!
# Compact Text Reads Back

The reader gives back the value that a compact text was written for, so the text of a value says
everything there is to know about it. Left out are values that no text can carry over: doubles,
integers past 64 bits, objects that repeat a key, and values that nest deeper than the reader goes.

## Main results

* `Json.Plain`: the values that come back, with a bound on how deep they nest.
* `Json.numberOf?_toString`: an integer comes back.
* `Json.readString?_inner`: a string comes back, whatever its characters are.
* `Json.readValue?_text`, `Json.readItems?_text`, `Json.readMembers?_text`: a value, the items of an
  array and the members of an object come back, and reading stops right behind them.
* `Json.parse_compact`: a whole text comes back.
* `Json.compact_injective`: different values have different texts.
-/

namespace RegisterMap

namespace Json

/-! ### Numbers -/

/-- An integer that fits **64 bits**, with or without a sign. -/
def FitsWord (n : Int) : Prop := -2 ^ 63 ≤ n ∧ n < 2 ^ 64

/-- An integer is written in decimal digits only. -/
theorem isDigit_of_mem_toDigits {n : Nat} {c : Char} (h : c ∈ Nat.toDigits 10 n) : c.isDigit :=
  Nat.isDigit_of_mem_toDigits (by decide) (by decide) h

/-- No integer is written with **a needless zero in front**. -/
theorem startsWell_toDigits (n : Nat) : startsWell (Nat.toDigits 10 n) = true := by
  cases hcs : Nat.toDigits 10 n with
  | nil => exact absurd hcs Nat.toDigits_ne_nil
  | cons c cs =>
    have hc : c.isDigit := isDigit_of_mem_toDigits (n := n) (by simp [hcs])
    by_cases hn : n = 0
    · subst hn
      obtain ⟨rfl, rfl⟩ := List.cons.inj hcs
      rfl
    · have hne := Text.head_toDigits_ne_zero (by omega) hcs
      unfold startsWell
      split <;> simp_all

/-- A number of 64 bits comes back from its digits. -/
theorem intOf?_toDigits {n : Nat} (h : n < 2 ^ 64) :
    intOf? false (Nat.toDigits 10 n) = some (n : Int) := by
  have hread : Text.ofDigits? 10 (Nat.toDigits 10 n) = some n :=
    Text.ofDigits?_toDigits (by decide) (by decide) n
  have hn : n < UInt64.size := h
  simp only [intOf?, hread, Option.bind_some, hn, if_true]
  rfl

/-- Behind a minus sign, digits are read as **the negative number**, down to the smallest of 64
bits. -/
theorem intOf?_toDigits_neg {n : Nat} (h0 : n ≠ 0) (h : n ≤ 2 ^ 63) :
    intOf? true (Nat.toDigits 10 n) = some (-(n : Int)) := by
  have hread : Text.ofDigits? 10 (Nat.toDigits 10 n) = some n :=
    Text.ofDigits?_toDigits (by decide) (by decide) n
  have hmin : Int64.minValue.toInt.natAbs = 2 ^ 63 := by decide
  have hn : ¬(n = 0 ∨ 2 ^ 63 < n) := by omega
  simp only [intOf?, hread, Option.bind_some, hmin, if_true]
  simpa using hn

/-- The text of an integer: its decimal digits, behind a minus sign if it is negative. -/
theorem toList_toString (n : Int) : (toString n).toList =
    if 0 ≤ n then Nat.toDigits 10 n.natAbs else '-' :: Nat.toDigits 10 n.natAbs := by
  have hrepr : toString n = n.repr := rfl
  rw [hrepr, Int.repr_eq_if]
  split
  next h =>
    have habs : n.toNat = n.natAbs := by omega
    simp [Nat.repr_eq_ofList_toDigits, habs]
  next h =>
    have habs : (-n).toNat = n.natAbs := by omega
    simp [Nat.repr_eq_ofList_toDigits, habs]

/-- Digits alone are a number without a fraction. -/
theorem numberOf?_of_intOf? {digits : List Char} {n : Int} (hs : startsWell digits)
    (hn : intOf? false digits = some n) : numberOf? digits = some (.int n) := by
  have hsign : ∀ rest, digits ≠ '-' :: rest := by
    rintro rest rfl
    simp [startsWell] at hs
  unfold numberOf?
  split
  next negative ds heq =>
    split at heq
    next rest => exact absurd rfl (hsign rest)
    next =>
      obtain ⟨rfl, rfl⟩ := heq
      simp [hs, hn, guard]

/-- So are digits behind a minus sign. -/
theorem numberOf?_minus_of_intOf? {digits : List Char} {n : Int} (hs : startsWell digits)
    (hn : intOf? true digits = some n) : numberOf? ('-' :: digits) = some (.int n) := by
  simp [numberOf?, hs, hn, guard]

/-- **An integer comes back** if it fits 64 bits. -/
theorem numberOf?_toString {n : Int} (h : FitsWord n) :
    numberOf? (toString n).toList = some (.int n) := by
  obtain ⟨hmin, hmax⟩ := h
  have hs := startsWell_toDigits n.natAbs
  rw [toList_toString]
  split
  next hn =>
    have hv : intOf? false (Nat.toDigits 10 n.natAbs) = some (n.natAbs : Int) :=
      intOf?_toDigits (by omega)
    rw [Int.natAbs_of_nonneg hn] at hv
    exact numberOf?_of_intOf? hs hv
  next hn =>
    have hv : intOf? true (Nat.toDigits 10 n.natAbs) = some (-(n.natAbs : Int)) :=
      intOf?_toDigits_neg (by omega) (by omega)
    rw [show -(n.natAbs : Int) = n by omega] at hv
    exact numberOf?_minus_of_intOf? hs hv

/-- The text of an integer holds nothing that ends a number. -/
theorem isNumberChar_of_mem {n : Int} {c : Char} (h : c ∈ (toString n).toList) :
    isNumberChar c := by
  have hd : ∀ c ∈ Nat.toDigits 10 n.natAbs, isNumberChar c := by
    intro c hc
    simp [isNumberChar, isDigit_of_mem_toDigits hc]
  rw [toList_toString] at h
  split at h
  · exact hd c h
  · rcases List.mem_cons.mp h with rfl | hc
    · rfl
    · exact hd c hc

/-- The text of an integer is not empty. -/
theorem exists_toString (n : Int) : ∃ c cs, (toString n).toList = c :: cs ∧ isNumberChar c := by
  cases hcs : (toString n).toList with
  | nil =>
    rw [toList_toString] at hcs
    split at hcs
    · exact absurd hcs Nat.toDigits_ne_nil
    · cases hcs
  | cons c cs =>
    have hmem : c ∈ (toString n).toList := by
      rw [hcs]
      exact List.mem_cons_self
    exact ⟨c, cs, rfl, isNumberChar_of_mem hmem⟩

/-! ### Strings -/

/-- The characters of a string between its quotes. -/
def inner (s : String) : List Char := s.toList.flatMap escapeChar

/-- A text in quotes is **what stands between them**, and the quotes. -/
theorem toList_quote (s : String) : (quote s).toList = '"' :: (inner s ++ ['"']) := by
  simp [quote, inner]

/-- Four hexadecimal digits are read as one code unit, and no more of them. -/
theorem readUnit?_append {ds : List Char} (h : ds.length = 4) (rest : List Char) :
    readUnit? (ds ++ rest) = (Text.ofDigits? 16 ds).map (·, rest) := by
  match ds, h with
  | [_, _, _, _], _ => rfl

/-- A control character comes back from the digits of its escape. -/
theorem readEscapedUnits?_control {c : Char} (h : c.toNat < 0x20) (rest : List Char) :
    readEscapedUnits? ((Text.padLeft '0' 4 (Text.hexDigits c.toNat)).toList ++ rest) =
      some (c, rest) := by
  have hlen := Text.length_padLeft_hexDigits (show 0 < 4 by decide)
    (show c.toNat < 16 ^ 4 by omega)
  have hval : Text.ofDigits? 16 (Text.padLeft '0' 4 (Text.hexDigits c.toNat)).toList =
      some c.toNat := Text.ofDigits?_padLeft (by decide) (by decide) 4 c.toNat
  have hhigh : ¬0xD800 ≤ c.toNat := by omega
  have hlow : c.toNat < 0xDC00 := by omega
  simp [readEscapedUnits?, readUnit?_append hlen, hval, hhigh, hlow, guard]

/-- One step of the reader takes in the text of one character, by one case per escape. -/
theorem readString?_escapeChar (fuel : Nat) (c : Char) (acc rest : List Char) :
    readString? (fuel + 1) acc (escapeChar c ++ rest) = readString? fuel (c :: acc) rest := by
  unfold escapeChar
  split
  · subst_vars; simp [readString?, simpleEscape?]
  split
  · subst_vars; simp [readString?, simpleEscape?]
  split
  · subst_vars; simp [readString?, simpleEscape?]
  split
  · subst_vars; simp [readString?, simpleEscape?]
  split
  · subst_vars; simp [readString?, simpleEscape?]
  split
  · subst_vars; simp [readString?, simpleEscape?]
  split
  · subst_vars; simp [readString?, simpleEscape?]
  split
  next hcontrol => simp [readString?, readEscapedUnits?_control hcontrol]
  next hquote hbackslash _ _ _ _ _ hplain => simp [readString?, hquote, hbackslash, hplain]

/-- Characters come back from their escapes, **one by one**, up to the quote. -/
theorem readString?_escaped (cs : List Char) {fuel : Nat} (hf : cs.length < fuel)
    (acc rest : List Char) :
    readString? fuel acc (cs.flatMap escapeChar ++ '"' :: rest) =
      some (String.ofList (acc.reverse ++ cs), rest) := by
  induction cs generalizing fuel acc with
  | nil =>
    obtain ⟨fuel, rfl⟩ := Nat.exists_eq_add_one_of_ne_zero (Nat.ne_zero_of_lt hf)
    simp [readString?]
  | cons c cs ih =>
    obtain ⟨fuel, rfl⟩ := Nat.exists_eq_add_one_of_ne_zero (Nat.ne_zero_of_lt hf)
    have hlen : cs.length < fuel := by simpa using hf
    simp only [List.flatMap_cons, List.append_assoc, readString?_escapeChar, ih hlen]
    simp

/-- No escape is shorter than its character. -/
theorem length_le_inner (s : String) : s.toList.length ≤ (inner s).length := by
  unfold inner
  induction s.toList with
  | nil => simp
  | cons c cs ih =>
    have hc : 1 ≤ (escapeChar c).length := by
      unfold escapeChar
      repeat' split
      all_goals simp
    simp only [List.flatMap_cons, List.length_append, List.length_cons]
    omega

/-- **A string comes back**, and reading stops behind its closing quote. -/
theorem readString?_inner {s : String} {fuel : Nat} (hf : (inner s).length < fuel)
    (rest : List Char) :
    readString? fuel [] (inner s ++ '"' :: rest) = some (s, rest) := by
  have hlen : s.toList.length < fuel := Nat.lt_of_le_of_lt (length_le_inner s) hf
  simpa [inner] using readString?_escaped s.toList hlen [] rest

/-! ### The text of a value, part by part -/

/-- The characters of a value's compact text. -/
def text (j : Json) : List Char := (compact j).toList

/-- The items of an array behind its first one. -/
def itemsText (items : List Json) : List Char := (writeCompactItems "" items).toList

/-- The members of an object behind its first one. -/
def membersText (members : List (String × Json)) : List Char :=
  (writeCompactMembers "" members).toList

/-- A member, from behind the quote that opens its key. -/
def memberText (key : String) (value : Json) : List Char := inner key ++ '"' :: ':' :: text value

-- What is written so far is never looked at: the text of a part stands behind it unchanged.
mutual

/-- Writing a value puts **its text** behind what is there. -/
theorem toList_writeCompact (out : String) :
    (j : Json) → (writeCompact out j).toList = out.toList ++ text j
  | .null | .bool true | .bool false | .int _ | .real _ | .str _ | .arr [] | .obj [] => by
    simp [text, compact, writeCompact]
  | .arr (x :: xs) => by
    rw [text, compact, writeCompact, toList_writeCompactItems _ xs, toList_writeCompact _ x,
      writeCompact, toList_writeCompactItems _ xs, toList_writeCompact _ x]
    simp
  | .obj ((k, v) :: rest) => by
    rw [text, compact, writeCompact, toList_writeCompactMembers _ rest, toList_writeCompact _ v,
      writeCompact, toList_writeCompactMembers _ rest, toList_writeCompact _ v]
    simp

/-- Writing items puts each behind a comma. -/
theorem toList_writeCompactItems (out : String) :
    (items : List Json) → (writeCompactItems out items).toList = out.toList ++ itemsText items
  | [] => by simp [itemsText, writeCompactItems]
  | x :: xs => by
    rw [itemsText, writeCompactItems, toList_writeCompactItems _ xs, toList_writeCompact _ x,
      writeCompactItems, toList_writeCompactItems _ xs, toList_writeCompact _ x]
    simp

/-- Writing members puts each behind a comma. -/
theorem toList_writeCompactMembers (out : String) :
    (members : List (String × Json)) →
      (writeCompactMembers out members).toList = out.toList ++ membersText members
  | [] => by simp [membersText, writeCompactMembers]
  | (k, v) :: rest => by
    rw [membersText, writeCompactMembers, toList_writeCompactMembers _ rest,
      toList_writeCompact _ v, writeCompactMembers, toList_writeCompactMembers _ rest,
      toList_writeCompact _ v]
    simp

end

/-- The text of an integer. -/
theorem text_int (n : Int) : text (.int n) = (toString n).toList := by
  simp [text, compact, writeCompact]

/-- The text of a string is what stands between the quotes, and the quotes. -/
theorem text_str (s : String) : text (.str s) = '"' :: (inner s ++ ['"']) := by
  rw [text, compact, writeCompact, String.toList_append, toList_quote]
  rfl

/-- The text of an array is its first item in a bracket, and the others behind it. -/
theorem text_arr_cons (x : Json) (xs : List Json) :
    text (.arr (x :: xs)) = '[' :: (text x ++ itemsText xs) := by
  rw [text, compact, writeCompact, toList_writeCompactItems, toList_writeCompact]
  simp

/-- Each further item stands behind a comma. -/
theorem itemsText_cons (x : Json) (xs : List Json) :
    itemsText (x :: xs) = ',' :: (text x ++ itemsText xs) := by
  rw [itemsText, writeCompactItems, toList_writeCompactItems, toList_writeCompact]
  simp

/-- The text of an object is its first member in a brace, and the others behind it. -/
theorem text_obj_cons (k : String) (v : Json) (rest : List (String × Json)) :
    text (.obj ((k, v) :: rest)) = '{' :: '"' :: (memberText k v ++ membersText rest) := by
  rw [text, compact, writeCompact, toList_writeCompactMembers, toList_writeCompact]
  simp [toList_quote, memberText]

/-- Each further member stands behind a comma. -/
theorem membersText_cons (k : String) (v : Json) (rest : List (String × Json)) :
    membersText ((k, v) :: rest) = ',' :: '"' :: (memberText k v ++ membersText rest) := by
  rw [membersText, writeCompactMembers, toList_writeCompactMembers, toList_writeCompact]
  simp [toList_quote, memberText]

/-! ### Where a part ends and the next one starts -/

/-- The characters behind a number end it. -/
def EndsNumber (rest : List Char) : Prop := ∀ c ∈ rest.head?, isNumberChar c = false

/-- An integer is taken **up to its end**. -/
theorem takeWhile_isNumberChar {n : Int} {rest : List Char} (h : EndsNumber rest) :
    ((toString n).toList ++ rest).takeWhile isNumberChar = (toString n).toList := by
  rw [List.takeWhile_append_of_pos (fun c hc => isNumberChar_of_mem hc)]
  cases rest with
  | nil => simp
  | cons c rest => simp [h c (by simp)]

/-- What is behind an integer is left. -/
theorem dropWhile_isNumberChar {n : Int} {rest : List Char} (h : EndsNumber rest) :
    ((toString n).toList ++ rest).dropWhile isNumberChar = rest := by
  rw [List.dropWhile_append_of_pos (fun c hc => isNumberChar_of_mem hc)]
  cases rest with
  | nil => simp
  | cons c rest => simp [h c (by simp)]

/-- No character of a number is one that is in none. -/
theorem ne_of_isNumberChar {c d : Char} (h : isNumberChar c) (hd : isNumberChar d = false) :
    c ≠ d := by
  rintro rfl
  rw [h] at hd
  cases hd

/-- A number starts with none of the characters that something else starts with. -/
theorem isNumberChar_head {c : Char} (h : isNumberChar c) :
    isSpace c = false ∧ c ∉ ['n', 't', 'f', '"', '[', '{', ']'] := by
  have hne := fun d hd => ne_of_isNumberChar (d := d) h hd
  constructor
  · simp [isSpace, hne ' ' rfl, hne '\t' rfl, hne '\n' rfl, hne '\r' rfl]
  · simp [hne 'n' rfl, hne 't' rfl, hne 'f' rfl, hne '"' rfl, hne '[' rfl, hne '{' rfl,
      hne ']' rfl]

/-- Nothing is skipped in front of what is no space. -/
theorem skipSpaces_cons {c : Char} (h : isSpace c = false) (cs : List Char) :
    skipSpaces (c :: cs) = c :: cs := by
  simp [skipSpaces, h]

/-! ### Reading -/

/-- A **plain** value: the reader knows all of it again. It has no doubles, its integers fit 64
bits, no object repeats a key, and arrays and objects nest at most `depth` deep. -/
def Plain : Nat → Json → Prop
  | _, .null | _, .bool _ | _, .str _ => True
  | _, .int n => FitsWord n
  | _, .real _ | 0, .arr _ | 0, .obj _ => False
  | depth + 1, .arr items => ∀ x ∈ items, Plain depth x
  | depth + 1, .obj members =>
    (members.map Prod.fst).Nodup ∧ ∀ m ∈ members, Plain depth m.2

/-- The text of a value is not empty. It starts with **no space and no closing bracket**. -/
theorem exists_text {depth : Nat} : {j : Json} → Plain depth j →
    ∃ c cs, text j = c :: cs ∧ isSpace c = false ∧ c ≠ ']'
  | .null, _ => ⟨'n', _, rfl, rfl, by decide⟩
  | .bool true, _ => ⟨'t', _, rfl, rfl, by decide⟩
  | .bool false, _ => ⟨'f', _, rfl, rfl, by decide⟩
  | .int n, _ => by
    obtain ⟨c, cs, hcs, hc⟩ := exists_toString n
    obtain ⟨hs, -⟩ := isNumberChar_head hc
    exact ⟨c, cs, (text_int n).trans hcs, hs, ne_of_isNumberChar hc rfl⟩
  | .real _, hp => by simp [Plain] at hp
  | .str s, _ => ⟨'"', _, text_str s, rfl, by decide⟩
  | .arr [], _ => ⟨'[', _, rfl, rfl, by decide⟩
  | .arr (x :: xs), _ => ⟨'[', _, text_arr_cons x xs, rfl, by decide⟩
  | .obj [], _ => ⟨'{', _, rfl, rfl, by decide⟩
  | .obj ((k, v) :: rest), _ => ⟨'{', _, text_obj_cons k v rest, rfl, by decide⟩

/-- A comma or the closing bracket stands behind an item. -/
theorem exists_itemsText (items : List Json) :
    ∃ c cs, itemsText items = c :: cs ∧ isNumberChar c = false := by
  cases items with
  | nil => exact ⟨']', [], rfl, rfl⟩
  | cons x xs => exact ⟨',', _, itemsText_cons x xs, rfl⟩

/-- A comma or the closing brace stands behind a member. -/
theorem exists_membersText (members : List (String × Json)) :
    ∃ c cs, membersText members = c :: cs ∧ isNumberChar c = false := by
  cases members with
  | nil => exact ⟨'}', [], rfl, rfl⟩
  | cons m ms => exact ⟨',', _, membersText_cons m.1 m.2 ms, rfl⟩

/-- The text of a value has at least one character, so that there is fuel for a step. -/
theorem exists_fuel {depth fuel : Nat} {j : Json} (hp : Plain depth j)
    (hf : 2 * (text j).length ≤ fuel) : ∃ n, fuel = n + 1 := by
  obtain ⟨c, cs, hcs, -⟩ := exists_text hp
  have hlen : (text j).length = cs.length + 1 := by rw [hcs, List.length_cons]
  exact Nat.exists_eq_add_one_of_ne_zero (by omega)

/-- What starts like a number is read as far as it looks like one. -/
theorem readValue?_number {c : Char} (h : isNumberChar c) (fuel depth : Nat) (cs : List Char) :
    readValue? (fuel + 1) depth (c :: cs) =
      (numberOf? ((c :: cs).takeWhile isNumberChar)).map (·, (c :: cs).dropWhile isNumberChar) := by
  obtain ⟨hs, hc⟩ := isNumberChar_head h
  unfold readValue?
  rw [skipSpaces_cons hs]
  split <;> simp_all

/-- **An integer comes back**, and what is behind it is left. -/
theorem readValue?_int {n : Int} (h : FitsWord n) {rest : List Char} (hr : EndsNumber rest)
    (fuel depth : Nat) :
    readValue? (fuel + 1) depth ((toString n).toList ++ rest) = some (.int n, rest) := by
  obtain ⟨c, cs, hcs, hc⟩ := exists_toString n
  rw [hcs, List.cons_append, readValue?_number hc, ← List.cons_append, ← hcs,
    takeWhile_isNumberChar hr, dropWhile_isNumberChar hr, numberOf?_toString h]
  rfl

/-- Behind a bracket that is not closed at once, the items of an array are read. -/
theorem readValue?_bracket {c : Char} (hs : isSpace c = false) (hc : c ≠ ']') (fuel depth : Nat)
    (cs : List Char) :
    readValue? (fuel + 1) (depth + 1) ('[' :: c :: cs) = readItems? fuel depth [] (c :: cs) := by
  have hspace : isSpace '[' = false := rfl
  simp [readValue?, skipSpaces_cons hspace, skipSpaces_cons hs, hc]

/-- Behind a brace and a quote, the members of an object are read. -/
theorem readValue?_brace (fuel depth : Nat) (cs : List Char) :
    readValue? (fuel + 1) (depth + 1) ('{' :: '"' :: cs) =
      readMembers? fuel depth [] ('"' :: cs) := by
  simp [readValue?, skipSpaces, isSpace]

/-- A key that is not there yet stands in front of the members as they are. -/
theorem addMember_of_not_mem {k : String} {members : List (String × Json)}
    (h : k ∉ members.map Prod.fst) (v : Json) : addMember k v members = (k, v) :: members := by
  unfold addMember
  rw [List.filter_eq_self.mpr]
  intro m hm
  simp only [bne_iff_ne]
  rintro rfl
  exact h (List.mem_map_of_mem hm)

/-- An array takes one level of the depth. -/
theorem Plain.exists_items {depth : Nat} {items : List Json} (h : Plain depth (.arr items)) :
    ∃ d, depth = d + 1 ∧ ∀ x ∈ items, Plain d x := by
  cases depth with
  | zero => simp [Plain] at h
  | succ d => exact ⟨d, rfl, h⟩

/-- An object takes one level of the depth. -/
theorem Plain.exists_members {depth : Nat} {members : List (String × Json)}
    (h : Plain depth (.obj members)) :
    ∃ d, depth = d + 1 ∧ (members.map Prod.fst).Nodup ∧ ∀ m ∈ members, Plain d m.2 := by
  cases depth with
  | zero => simp [Plain] at h
  | succ d => exact ⟨d, rfl, h⟩

-- By recursion on the value. Two units of fuel for each character are enough for every step.
mutual

/-- **A value comes back**, and reading stops behind it. -/
theorem readValue?_text {fuel depth : Nat} (rest : List Char) (j : Json) (hp : Plain depth j)
    (hf : 2 * (text j).length ≤ fuel) (hr : EndsNumber rest) :
    readValue? fuel depth (text j ++ rest) = some (j, rest) := by
  obtain ⟨fuel, rfl⟩ := exists_fuel hp hf
  cases j with
  | null => simp [text, compact, writeCompact, readValue?, skipSpaces, isSpace]
  | bool b => cases b <;> simp [text, compact, writeCompact, readValue?, skipSpaces, isSpace]
  | int n =>
    have hn : FitsWord n := by simpa [Plain] using hp
    rw [text_int]
    exact readValue?_int hn hr fuel depth
  | real x => simp [Plain] at hp
  | str s =>
    have hlen : (inner s).length < fuel := by
      simp only [text_str, List.length_cons, List.length_append] at hf
      omega
    simp [text_str, readValue?, skipSpaces, isSpace, readString?_inner hlen rest]
  | arr items =>
    obtain ⟨depth, rfl, hitems⟩ := hp.exists_items
    cases items with
    | nil => simp [text, compact, writeCompact, readValue?, skipSpaces, isSpace]
    | cons x xs =>
      obtain ⟨c, cs, hcs, hs, hc⟩ := exists_text (hitems x (by simp))
      have hlen : 2 * (text x ++ itemsText xs).length ≤ fuel := by
        simp only [text_arr_cons, List.length_cons] at hf
        omega
      have hread := readItems?_text rest (x :: xs) [] hitems (itemsText_cons x xs) hlen
      simp only [hcs, List.cons_append] at hread
      simpa [text_arr_cons, hcs, readValue?_bracket hs hc] using hread
  | obj members =>
    obtain ⟨depth, rfl, hkeys, hmembers⟩ := hp.exists_members
    cases members with
    | nil => simp [text, compact, writeCompact, readValue?, skipSpaces, isSpace]
    | cons m ms =>
      obtain ⟨k, v⟩ := m
      have hlen : 2 * ('"' :: (memberText k v ++ membersText ms)).length ≤ fuel := by
        simp only [text_obj_cons, List.length_cons] at hf ⊢
        omega
      have hread := readMembers?_text rest ((k, v) :: ms) [] hmembers (by simpa using hkeys)
        (membersText_cons k v ms) hlen
      simpa [text_obj_cons, readValue?_brace] using hread

/-- **Items come back** from behind a comma or the opening bracket. -/
theorem readItems?_text {fuel depth : Nat} {cs : List Char} (rest : List Char) :
    (items : List Json) → (acc : List Json) → (∀ x ∈ items, Plain depth x) →
    itemsText items = ',' :: cs → 2 * cs.length ≤ fuel →
    readItems? fuel depth acc (cs ++ rest) = some (.arr (acc.reverse ++ items), rest)
  | [], _, _, hcs, _ => by simp [itemsText, writeCompactItems] at hcs
  | x :: xs, acc, hp, hcs, hf => by
    obtain rfl : text x ++ itemsText xs = cs := by simpa [itemsText_cons] using hcs
    obtain ⟨c, after, hafter, hc⟩ := exists_itemsText xs
    have hends : EndsNumber (itemsText xs ++ rest) := by simp [EndsNumber, hafter, hc]
    have hpx : Plain depth x := hp x (by simp)
    simp only [hafter, List.length_append, List.length_cons] at hf
    obtain ⟨fuel, rfl⟩ := exists_fuel hpx (show 2 * (text x).length ≤ fuel by omega)
    have hx := readValue?_text _ x hpx (show 2 * (text x).length ≤ fuel by omega) hends
    simp only [readItems?, List.append_assoc, hx, Option.bind_eq_bind, Option.bind_some]
    cases xs with
    | nil => simp [itemsText, writeCompactItems, skipSpaces, isSpace]
    | cons y ys =>
      obtain ⟨rfl, rfl⟩ : c = ',' ∧ after = text y ++ itemsText ys := by
        simpa [itemsText_cons, eq_comm] using hafter
      have hpxs : ∀ z ∈ y :: ys, Plain depth z := fun z hz => hp z (by simp [hz])
      have hlen : 2 * (text y ++ itemsText ys).length ≤ fuel := by omega
      have hxs := readItems?_text rest (y :: ys) (x :: acc) hpxs hafter hlen
      simpa [hafter, skipSpaces, isSpace] using hxs

/-- **Members come back** from behind a comma or the opening brace, as long as no key is there
twice. -/
theorem readMembers?_text {fuel depth : Nat} {cs : List Char} (rest : List Char) :
    (members : List (String × Json)) → (acc : List (String × Json)) →
    (∀ m ∈ members, Plain depth m.2) → ((acc.reverse ++ members).map Prod.fst).Nodup →
    membersText members = ',' :: cs → 2 * cs.length ≤ fuel →
    readMembers? fuel depth acc (cs ++ rest) = some (.obj (acc.reverse ++ members), rest)
  | [], _, _, _, hcs, _ => by simp [membersText, writeCompactMembers] at hcs
  | (k, v) :: ms, acc, hp, hnd, hcs, hf => by
    obtain rfl : '"' :: (memberText k v ++ membersText ms) = cs := by
      simpa [membersText_cons] using hcs
    obtain ⟨c, after, hafter, hc⟩ := exists_membersText ms
    have hends : EndsNumber (membersText ms ++ rest) := by simp [EndsNumber, hafter, hc]
    have hpv : Plain depth v := hp (k, v) (by simp)
    simp only [hafter, memberText, List.length_append, List.length_cons] at hf
    obtain ⟨fuel, rfl⟩ := exists_fuel hpv (show 2 * (text v).length ≤ fuel by omega)
    have hk := readString?_inner (show (inner k).length < fuel by omega)
      (':' :: (text v ++ (membersText ms ++ rest)))
    have hv := readValue?_text _ v hpv (show 2 * (text v).length ≤ fuel by omega) hends
    have hnew : k ∉ acc.map Prod.fst := by
      simp only [List.map_append, List.map_reverse, List.map_cons, List.nodup_append,
        List.mem_reverse] at hnd
      exact fun hk => hnd.2.2 k hk k (by simp) rfl
    have hquote : isSpace '"' = false := rfl
    have hcolon : isSpace ':' = false := rfl
    simp only [readMembers?, memberText, List.cons_append, List.append_assoc,
      skipSpaces_cons hquote, skipSpaces_cons hcolon, hk, hv, Option.bind_eq_bind,
      Option.bind_some, addMember_of_not_mem hnew]
    cases ms with
    | nil => simp [membersText, writeCompactMembers, skipSpaces, isSpace]
    | cons m ms =>
      obtain ⟨l, w⟩ := m
      obtain ⟨rfl, rfl⟩ : c = ',' ∧ after = '"' :: (memberText l w ++ membersText ms) := by
        simpa [membersText_cons, eq_comm] using hafter
      have hpms : ∀ n ∈ (l, w) :: ms, Plain depth n.2 := fun n hn => hp n (by simp [hn])
      have hlen : 2 * ('"' :: (memberText l w ++ membersText ms)).length ≤ fuel := by omega
      have hms := readMembers?_text rest ((l, w) :: ms) ((k, v) :: acc) hpms (by simpa using hnd)
        hafter hlen
      simpa [hafter, skipSpaces, isSpace] using hms

end

/-- **Compact text reads back** as the value it was written for. -/
theorem parse_compact {j : Json} (h : Plain maxDepth j) : parse (compact j) = some j := by
  have hfuel : 2 * (text j).length ≤ 2 * (text j).length + 2 := Nat.le_add_right _ _
  have hread : readValue? (2 * (text j).length + 2) maxDepth (text j) = some (j, []) := by
    have hends : EndsNumber [] := by simp [EndsNumber]
    simpa only [List.append_nil] using readValue?_text [] j h hfuel hends
  rw [text] at hread
  rw [parse, hread]
  rfl

/-- **Different values have different texts.** -/
theorem compact_injective {j k : Json} (hj : Plain maxDepth j) (hk : Plain maxDepth k)
    (h : compact j = compact k) : j = k := by
  have hread := parse_compact hj
  rw [h, parse_compact hk] at hread
  exact (Option.some.inj hread).symm

end Json

end RegisterMap
