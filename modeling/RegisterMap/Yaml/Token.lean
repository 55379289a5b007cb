import RegisterMap.Yaml.Tag

/-!
# YAML Tokens

What a YAML text consists of. Indentation shows as tokens that open and close block collections, and
a simple key has its own token in front, so that the grammar over tokens needs no lookahead.
-/

namespace RegisterMap.Yaml

/-- A **token** of a YAML stream. -/
inductive Token where
  | versionDirective (major minor : Nat)
  | tagDirective (handle : String) (start : TagBytes)
  | documentStart
  | documentEnd
  | blockSequenceStart
  | blockMappingStart
  | blockEnd
  | flowSequenceStart
  | flowSequenceEnd
  | flowMappingStart
  | flowMappingEnd
  /-- The dash in front of an item. -/
  | blockEntry
  /-- The comma between items. -/
  | flowEntry
  | key
  | value
  | alias (name : String)
  | anchor (name : String)
  | tag (handle : String) (suffix : TagBytes)
  /-- A scalar; a plain one has neither quotes nor a block header. -/
  | scalar (text : String) (plain : Bool)
deriving Repr, DecidableEq, Inhabited

end RegisterMap.Yaml
