import RegisterMap.Document.Problem
import RegisterMap.Yaml.Value

/-!
# Located Values

A value of a document together with its path, which is what a message about it names. This module
reads children, strings, numbers and sequences; a child of value null counts as absent.
-/

namespace RegisterMap

/-- A **value at a path**. -/
structure Located where
  value : Yaml.Value
  path : String
deriving Repr, Inhabited

namespace Located

/-- Fail with a problem at this value. -/
def fail (n : Located) (problem : Problem) : Checked α := failAt n.path problem

/-- The same value under another path. -/
def renamed (n : Located) (path : String) : Located := { n with path }

/-! ### Mappings -/

/-- The value is a mapping, tagged or not. -/
def isMapping (n : Located) : Bool := n.value.isMap

/-- Fail unless the value is a mapping. -/
def expectMapping (n : Located) (what : String) : Checked Unit :=
  if n.isMapping then .ok () else n.fail (.mustBeMapping what)

/-- The value at `key`, unless it is null. -/
def child? (n : Located) (key : String) : Option Located :=
  match n.value.get? key with
  | none | some .null => none
  | some value => some ⟨value, s!"{n.path}.{key}"⟩

/-- The value at the first of `keys` that has one. -/
def childAny? (n : Located) (keys : List String) : Option Located := keys.findSome? n.child?

/-- There is a value at `key`. -/
def has (n : Located) (key : String) : Bool := (n.child? key).isSome

/-- The value at a key that has to be there. -/
def require (n : Located) (key : String) : Checked Located :=
  match n.child? key with
  | some c => .ok c
  | none => n.fail (.missingKey key)

/-- How many keys of an untagged mapping are strings. -/
def stringKeyCount (n : Located) : Nat :=
  match n.value with
  | .map entries => (entries.filter fun e => e.1.asStr?.isSome).length
  | _ => 0

/-- The entries of an untagged mapping whose keys are strings. -/
def entries (n : Located) : Checked (List (String × Located)) :=
  match n.value with
  | .map entries => entries.mapM fun (key, value) =>
    match key.asStr? with
    | some key => .ok (key, ⟨value, s!"{n.path}.{key}"⟩)
    | none => n.fail .keysNotStrings
  | _ => n.fail .expectedMapping

/-! ### Scalars -/

/-- The text of a string. -/
def asStr (n : Located) : Checked String :=
  match n.value.asStr? with
  | some s => .ok s
  | none => n.fail .expectedString

/-- A **number of 64 bits**, written as an integer or as a literal in a string. -/
def asNat64 (n : Located) : Checked UInt64 :=
  match n.value with
  | .int k => if 0 ≤ k then .ok (.ofNat k.toNat) else n.fail (.negativeNumber k)
  | .real x => n.fail (.notAnInteger (Yaml.Value.realText x))
  | .str s =>
    match Literal.parse s with
    | .ok k => .ok k
    | .error e => n.fail (.badLiteral e)
  | _ => n.fail .expectedInteger

/-- A **number of 32 bits**. -/
def asNat32 (n : Located) : Checked UInt32 := do
  let k ← n.asNat64
  if k.toNat < UInt32.size then pure (.ofNat k.toNat) else n.fail (.tooLarge k)

/-! ### Sequences -/

/-- The items of an untagged sequence. -/
def asSeq (n : Located) : Checked (List Located) :=
  match n.value with
  | .seq items => .ok (items.mapIdx fun i value => ⟨value, s!"{n.path}[{i}]"⟩)
  | _ => n.fail .expectedSequence

/-- The items of a sequence; a mapping stands for the sequence that holds only it. -/
def asSeqOrOne (n : Located) : Checked (List Located) :=
  if n.isMapping then .ok [n] else n.asSeq

/-! ### Members -/

/-- The name that every named thing has. -/
def name (n : Located) : Checked String := do (← n.require "name").asStr

/-- The string at a key, if there is one. -/
def optStr (n : Located) (key : String) : Checked (Option String) :=
  (n.child? key).mapM (·.asStr)

/-- The number at the first of `keys` that has one. -/
def optNat64 (n : Located) (keys : List String) : Checked (Option UInt64) :=
  (n.childAny? keys).mapM (·.asNat64)

/-- The number at the first of `keys` that has one. -/
def optNat32 (n : Located) (keys : List String) : Checked (Option UInt32) :=
  (n.childAny? keys).mapM (·.asNat32)

/-- The items at a key; none without the key. -/
def optSeq (n : Located) (key : String) : Checked (List Located) :=
  match n.child? key with
  | some c => c.asSeq
  | none => .ok []

end Located

end RegisterMap
