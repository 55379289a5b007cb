/-!
# Output Formats

Whatever is written out comes in a few formats, each chosen by its name.
-/

namespace RegisterMap

/-- A **format** that is none of those on offer. -/
structure UnknownFormat where
  /-- What was to be written. -/
  what : String
  name : String
  choices : List String
deriving Repr, DecidableEq

namespace UnknownFormat

/-- The wording of an unknown format. -/
def message (e : UnknownFormat) : String :=
  let choices := ", ".intercalate e.choices
  s!"unknown {e.what} format: '{e.name}'. Choose: {choices}"

end UnknownFormat

end RegisterMap
