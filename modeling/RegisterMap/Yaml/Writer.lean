import RegisterMap.Yaml.Style
import RegisterMap.Yaml.Value

/-!
# Writing YAML Text

A JSON value is written as YAML in block style, one entry or item a line. The entries of a mapping
stand two columns further in than the mapping's key; the items of a sequence stand in the column of
the sequence's key. Empty collections are written in flow style.
-/

namespace RegisterMap.Yaml

/-- `out` with a line break at its end, unless it ends with one. -/
def closeLine (out : String) : String :=
  if out.toList.getLast?.any isBreak then out else out ++ "\n"

/-- The line of a string value, with the space in front of it. -/
def stringLine (indent : Nat) (s : String) : String :=
  closeLine (" " ++ (Style.ofString s).write indent s)

/-- The text of a key and its colon. -/
def keyText (key : String) : String :=
  let style := if key.toList.contains '\n' then .doubleQuoted else Style.inLine key
  style.write 0 key ++ ":"

/-- The spaces in front of column `column`. -/
def margin (column : Nat) : String := String.ofList (spaces column)

mutual

/-- `out`, which ends with a key and its colon, and the key's value. The key stands in column
`column`. -/
def writeEntry (column : Nat) (out : String) : Json → String
  | .null => out ++ " null\n"
  | .bool b => out ++ (if b then " true\n" else " false\n")
  | .int n => out ++ " " ++ toString n ++ "\n"
  | .real x => out ++ " " ++ Value.realText x ++ "\n"
  | .str s => out ++ stringLine (column + 2) s
  | .arr [] => out ++ " []\n"
  | .arr (x :: xs) =>
    writeItems column (writeItem column (out ++ "\n" ++ margin column ++ "-") x) xs
  | .obj [] => out ++ " \x7b\x7d\n"
  | .obj ((k, v) :: rest) =>
    writeEntries (column + 2)
      (writeEntry (column + 2) (out ++ "\n" ++ margin (column + 2) ++ keyText k) v) rest

/-- `out`, which ends with the hyphen of an item in column `column`, and the item. -/
def writeItem (column : Nat) (out : String) : Json → String
  | .null => out ++ " null\n"
  | .bool b => out ++ (if b then " true\n" else " false\n")
  | .int n => out ++ " " ++ toString n ++ "\n"
  | .real x => out ++ " " ++ Value.realText x ++ "\n"
  | .str s => out ++ stringLine (column + 2) s
  | .arr [] => out ++ " []\n"
  | .arr (x :: xs) => writeItems (column + 2) (writeItem (column + 2) (out ++ " -") x) xs
  | .obj [] => out ++ " \x7b\x7d\n"
  | .obj ((k, v) :: rest) =>
    writeEntries (column + 2) (writeEntry (column + 2) (out ++ " " ++ keyText k) v) rest

/-- `out` and the further items of a sequence in column `column`. -/
def writeItems (column : Nat) (out : String) : List Json → String
  | [] => out
  | x :: xs => writeItems column (writeItem column (out ++ margin column ++ "-") x) xs

/-- `out` and the further entries of a mapping in column `column`. -/
def writeEntries (column : Nat) (out : String) : List (String × Json) → String
  | [] => out
  | (k, v) :: rest =>
    writeEntries column (writeEntry column (out ++ margin column ++ keyText k) v) rest

end

/-- The **YAML text** of a JSON value. -/
def write : Json → String
  | .arr (x :: xs) => writeItems 0 "" (x :: xs)
  | .obj (entry :: rest) => writeEntries 0 "" (entry :: rest)
  | scalar => String.ofList ((writeItem 0 "" scalar).toList.drop 1)

end RegisterMap.Yaml
