import RegisterMap.Json.Basic
import RegisterMap.Word

/-!
# Decoding JSON Values

Records are read from the members of an object by key. A member may be required, optional (absent or
null), or replaced by a default when absent; members with other keys do not matter. An array may
stand for a record as well: its items are the members, in the order of the record's keys.
-/

namespace RegisterMap.Json

/-- The member of an object called `key`; nothing for other values. -/
def get? (value : Json) (key : String) : Option Json :=
  match value with
  | .obj members => members.lookup key
  | _ => none

/-! ### Scalars and lists -/

def toStr? : Json → Option String
  | .str s => some s
  | _ => none

def toBool? : Json → Option Bool
  | .bool b => some b
  | _ => none

/-- A 64-bit number. -/
def toNat64? : Json → Option UInt64
  | .int n => nat64? n
  | _ => none

/-- A 32-bit number. -/
def toNat32? : Json → Option UInt32
  | .int n => nat32? n
  | _ => none

/-- A list whose items all decode. -/
def toList? (decode : Json → Option α) : Json → Option (List α)
  | .arr items => items.mapM decode
  | _ => none

/-- One of `choices`, written as its name, or as an object with that name for its only key and null
for its value. -/
def toChoice? (choices : List α) (name : α → String) : Json → Option α
  | .str s => choices.find? (name · == s)
  | .obj [(key, .null)] => choices.find? (name · == key)
  | _ => none

/-! ### Members -/

/-- The object with the members of a **record** with these keys: the value itself if it is an
object, and the items of an array in the order of the keys. An array may leave out the last ones and
holds no more items than there are keys. -/
def toRecord? (keys : List String) : Json → Option Json
  | .obj members => some (.obj members)
  | .arr items => if items.length ≤ keys.length then some (.obj (keys.zip items)) else none
  | _ => none

/-- A member that has to be there. -/
def required (value : Json) (key : String) (decode : Json → Option α) : Option α :=
  (value.get? key).bind decode

/-- A member that may be absent or null. -/
def optional (value : Json) (key : String) (decode : Json → Option α) : Option (Option α) :=
  match value.get? key with
  | none | some .null => some none
  | some member => (decode member).map some

/-- A member with a default for when it is absent. -/
def withDefault (value : Json) (key : String) (fallback : α) (decode : Json → Option α) :
    Option α :=
  match value.get? key with
  | none => some fallback
  | some member => decode member

/-! ### Building objects -/

/-- A member that is always there. -/
def member (key : String) (value : Json) : List (String × Json) := [(key, value)]

/-- A member that is absent when there is no value. -/
def memberIfSome (key : String) (value : Option α) (encode : α → Json) : List (String × Json) :=
  match value with
  | some a => [(key, encode a)]
  | none => []

/-- A member that is absent when the list is empty. -/
def memberIfAny (key : String) (items : List α) (encode : α → Json) : List (String × Json) :=
  if items.isEmpty then [] else [(key, .arr (items.map encode))]

end RegisterMap.Json
