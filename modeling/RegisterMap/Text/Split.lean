/-!
# Splitting at a Separator

Dotted paths and bit ranges are split once, at the first or at the last separator. A text without
the separator has no such split.
-/

namespace RegisterMap.Text

/-- The characters before and after the **first** separator. -/
def splitFirstChars (sep : Char) : List Char → Option (List Char × List Char)
  | [] => none
  | c :: cs =>
    if c = sep then some ([], cs)
    else (splitFirstChars sep cs).map fun (before, after) => (c :: before, after)

/-- The characters before and after the **last** separator. -/
def splitLastChars (sep : Char) (cs : List Char) : Option (List Char × List Char) :=
  (splitFirstChars sep cs.reverse).map fun (after, before) => (before.reverse, after.reverse)

/-- The text before and after the first separator. -/
def splitFirst (sep : Char) (s : String) : Option (String × String) :=
  (splitFirstChars sep s.toList).map fun (a, b) => (String.ofList a, String.ofList b)

/-- The text before and after the last separator. -/
def splitLast (sep : Char) (s : String) : Option (String × String) :=
  (splitLastChars sep s.toList).map fun (a, b) => (String.ofList a, String.ofList b)

end RegisterMap.Text
