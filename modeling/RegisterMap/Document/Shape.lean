import RegisterMap.Document.Located

/-!
# Document Shapes

A document in the **current** shape is a sequence of memory maps, or a mapping with the key
`memoryMaps`. A document in the **legacy** shape is one or more sections, of which at least one has
the key `memoryMap` or `registerTemplates`.
-/

namespace RegisterMap

/-- The layouts of a document. -/
inductive Shape where
  | current
  | legacy
deriving Repr, DecidableEq, Inhabited

namespace Shape

/-- The keys that make a section a legacy one. -/
def legacyKeys : List String := ["memoryMap", "registerTemplates"]

/-- The keys of which every section of several has at least one. -/
def sectionKeys : List String :=
  ["memoryMap", "registerTemplates", "clocks", "resets", "busInterfaces"]

/-- The path of a section. -/
def sectionPath (i : Nat) : String := s!"<section {i}>"

/-- The section has a value, null or not, at one of the keys. -/
def hasAny (keys : List String) (value : Yaml.Value) : Bool :=
  keys.any fun key => (value.get? key).isSome

/-- Check one of several sections. -/
def checkSection (i : Nat) (value : Yaml.Value) : Checked Unit :=
  if !value.isMap then failAt (sectionPath i) .sectionNotMapping
  else if hasAny ["memoryMaps"] value then failAt (sectionPath i) .mapsNotAlone
  else if !hasAny sectionKeys value then failAt (sectionPath i) .sectionWithoutKnownKey
  else .ok ()

/-- Check sections from number `i` on. -/
def checkSections : Nat → List Yaml.Value → Checked Unit
  | _, [] => .ok ()
  | i, v :: vs => do
    checkSection i v
    checkSections (i + 1) vs

/-- The **shape of a document** that consists of these sections. -/
def detect (sections : List Yaml.Value) : Checked Shape :=
  match sections with
  | [] => failAt "<root>" .emptyDocument
  | [.seq _] => .ok .current
  | [.map entries] =>
    if hasAny ["memoryMaps"] (.map entries) then .ok .current
    else if hasAny legacyKeys (.map entries) then .ok .legacy
    else failAt "<root>" .unrecognizedShape
  | [_] => failAt "<root>" .rootNeitherMappingNorSequence
  | many => do
    checkSections 0 many
    if many.any (hasAny legacyKeys) then pure .legacy
    else failAt "<root>" .noMapOrTemplateSection

end Shape

end RegisterMap
