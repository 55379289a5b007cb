/-!
# Blank Characters

Surrounding blanks of a literal, a bit range or a keyword do not count. A character is **blank**
when the Unicode property `White_Space` holds of it; `trim` removes such characters at both ends.
-/

namespace RegisterMap.Text

/-- The Unicode property **White_Space**. -/
def isBlank (c : Char) : Bool :=
  let n := c.toNat
  (0x09 ≤ n && n ≤ 0x0D) || n == 0x20 || n == 0x85 || n == 0xA0 || n == 0x1680 ||
    (0x2000 ≤ n && n ≤ 0x200A) || n == 0x2028 || n == 0x2029 || n == 0x202F || n == 0x205F ||
    n == 0x3000

/-- The characters without the blanks at both ends. -/
def trimChars (cs : List Char) : List Char :=
  ((cs.dropWhile isBlank).reverse.dropWhile isBlank).reverse

/-- The text without the blanks at both ends. -/
def trim (s : String) : String := String.ofList (trimChars s.toList)

/-- The text with ASCII capitals replaced by small letters. -/
def lower (s : String) : String := s.map Char.toLower

end RegisterMap.Text
