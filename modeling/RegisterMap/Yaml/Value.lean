import RegisterMap.Decimal.Shortest
import RegisterMap.Json.Basic

/-!
# YAML Values

The data of a YAML document: scalars, sequences, mappings and values with a local tag. Integers
lie between `-2 ^ 63` and `2 ^ 64 - 1`. A mapping keeps the order of its entries, but the order does
not count when two mappings are compared.
-/

namespace RegisterMap.Yaml

/-- A **YAML value**. -/
inductive Value where
  | null
  | bool (value : Bool)
  | int (value : Int)
  | real (value : Float)
  | str (value : String)
  | seq (items : List Value)
  | map (entries : List (Value × Value))
  /-- A value under a local tag, which is given by its name. -/
  | tagged (tag : String) (value : Value)
deriving Repr, Inhabited

namespace Value

/-- Exponents that are not negative have no sign. -/
def realStyle : Decimal.Style := {}

/-- The text of a double, with the YAML names of the numbers that have no digits. -/
def realText (x : Float) : String :=
  if x.isNaN then ".nan"
  else if x.isInf then if x < 0 then "-.inf" else ".inf"
  else Decimal.renderFinite realStyle x

/-! ### Views -/

/-- The value under all tags. -/
def untag : Value → Value
  | .tagged _ v => v.untag
  | v => v

/-- The text of a string, tagged or not. -/
def asStr? (v : Value) : Option String :=
  match v.untag with
  | .str s => some s
  | _ => none

/-- The entries of a mapping, tagged or not. -/
def asMap? (v : Value) : Option (List (Value × Value)) :=
  match v.untag with
  | .map entries => some entries
  | _ => none

/-- The value is a mapping, tagged or not. -/
def isMap (v : Value) : Bool := v.asMap?.isSome

/-- The value is null, tagged or not. -/
def isNull (v : Value) : Bool :=
  match v.untag with
  | .null => true
  | _ => false

/-- The key is the plain string `key`. -/
def isKey (key : String) : Value → Bool
  | .str s => s == key
  | _ => false

/-- The value at a string key of a mapping, tagged or not. -/
def get? (v : Value) (key : String) : Option Value :=
  v.asMap?.bind fun entries => (entries.find? fun e => isKey key e.1).map (·.2)

/-! ### Equality -/

mutual

/-- The two values are the same as mapping **keys**. -/
def same : Value → Value → Bool
  | .null, .null => true
  | .bool a, .bool b => a == b
  | .int a, .int b => a == b
  | .real a, .real b => (a.isNaN && b.isNaN) || a == b
  | .str a, .str b => a == b
  | .seq a, .seq b => sameItems a b
  | .map a, .map b => a.length == b.length && containedIn a b
  | .tagged s a, .tagged t b => s == t && same a b
  | _, _ => false

/-- The two sequences have the same items in the same order. -/
def sameItems : List Value → List Value → Bool
  | [], [] => true
  | a :: as, b :: bs => same a b && sameItems as bs
  | _, _ => false

/-- Every entry of the first mapping is an entry of the second. -/
def containedIn : List (Value × Value) → List (Value × Value) → Bool
  | [], _ => true
  | (k, v) :: rest, other =>
    other.any (fun e => same k e.1 && same v e.2) && containedIn rest other

end

/-! ### Values from JSON -/

/-- Members in the order of their keys, code point by code point. -/
def sortMembers (members : List (String × α)) : List (String × α) :=
  members.mergeSort fun a b => !(b.1 < a.1)

mutual

/-- A JSON value as a YAML value; members come in the order of their keys. -/
def ofJson : Json → Value
  | .null => .null
  | .bool b => .bool b
  | .int n => .int n
  | .real x => .real x
  | .str s => .str s
  | .arr items => .seq (ofJsonItems items)
  | .obj members => .map ((sortMembers (ofJsonMembers members)).map fun (k, v) => (.str k, v))

/-- The items of a JSON array. -/
def ofJsonItems : List Json → List Value
  | [] => []
  | x :: xs => ofJson x :: ofJsonItems xs

/-- The members of a JSON object. -/
def ofJsonMembers : List (String × Json) → List (String × Value)
  | [] => []
  | (k, v) :: rest => (k, ofJson v) :: ofJsonMembers rest

end

end Value

end RegisterMap.Yaml
