import RegisterMap.Decimal.Reading
import RegisterMap.Word

/-!
# TOML Values

The data of a TOML document. A table keeps its entries in the order of their keys' first occurrence;
no key occurs twice.
-/

namespace RegisterMap.Toml

/-- A **TOML value**. -/
inductive Value where
  | str (value : String)
  | int (value : Int)
  | real (value : Float)
  | bool (value : Bool)
  /-- A date, a time, or both, as written. -/
  | date (text : String)
  | arr (items : List Value)
  | table (entries : List (String × Value))
deriving Repr, Inhabited

namespace Value

def toStr? : Value → Option String
  | .str s => some s
  | _ => none

def toBool? : Value → Option Bool
  | .bool b => some b
  | _ => none

/-- A 64-bit number; TOML itself has only signed ones. -/
def toNat64? : Value → Option UInt64
  | .int n => nat64? n
  | _ => none

/-- A 32-bit number. -/
def toNat32? : Value → Option UInt32
  | .int n => nat32? n
  | _ => none

/-- An array whose items all decode. -/
def toList? (decode : Value → Option α) : Value → Option (List α)
  | .arr items => items.mapM decode
  | _ => none

/-- Nothing: an array or a table without entries. -/
def isEmpty : Value → Bool
  | .arr [] | .table [] => true
  | _ => false

/-- One of `choices`, written as its name, or as a table with that name for its only key and nothing
for its value. -/
def toChoice? (choices : List α) (name : α → String) : Value → Option α
  | .str s => choices.find? (name · == s)
  | .table [(key, value)] => if value.isEmpty then choices.find? (name · == key) else none
  | _ => none

/-- The entries of a **record** with these keys: those of a table, or the items of an array in the
order of the keys. A date has parts of its own, none of which is an entry. -/
def toRecord? (keys : List String) : Value → Option (List (String × Value))
  | .table entries => some entries
  | .arr items => some (keys.zip items)
  | .date _ => some []
  | _ => none

end Value

/-- The entries of a table. -/
abbrev Entries := List (String × Value)

namespace Entries

/-- The value of a key that has to be there. -/
def required (entries : Entries) (key : String) (decode : Value → Option α) : Option α :=
  (entries.lookup key).bind decode

/-- The value of a key, with a default for when it is absent. -/
def withDefault (entries : Entries) (key : String) (fallback : α) (decode : Value → Option α) :
    Option α :=
  match entries.lookup key with
  | none => some fallback
  | some value => decode value

end Entries

end RegisterMap.Toml
