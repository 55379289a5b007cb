import RegisterMap.Access
import RegisterMap.Document.BitRange
import RegisterMap.Text.Literal
import RegisterMap.Yaml.Error

/-!
# What Is Wrong with a Document

A problem is found at a path of the document. It is a **schema** problem when the document does not
have the structure it needs, and a **format** problem when a number or a bit range is not written as
one. It is an **overflow** when a number that is computed from the document does not fit in its
bits. An overflow is not an answer to a document: the program stops where it happens.
-/

namespace RegisterMap

/-- The classes of problems. -/
inductive ProblemKind where
  | schema
  | format
  | overflow
deriving Repr, DecidableEq, Inhabited

/-- What is **wrong** at a place of a document. -/
inductive Problem where
  | emptyDocument
  | rootNeitherMappingNorSequence
  | unrecognizedShape
  | sectionNotMapping
  | mapsNotAlone
  | sectionWithoutKnownKey
  | noMapOrTemplateSection
  | missingKey (key : String)
  | expectedString
  | expectedInteger
  | expectedSequence
  | expectedMapping
  | keysNotStrings
  | mustBeMapping (what : String)
  | repeatedMap (name : String)
  | repeatedTemplate (name : String)
  | unknownUsage (usage : String)
  | unknownAccess (cause : UnknownAccessPolicy)
  | unknownPolarity (polarity : String)
  | unknownMode (mode : String)
  | nestedArray
  | reservedWithOtherKeys
  | unsupportedWidth (width : UInt32)
  | emptyArray
  | arrayTooLarge (count limit : UInt64)
  | unknownTemplate (name : String)
  /-- No power of two that fits in 64 bits holds an instance of so many bytes. -/
  | strideOverflow (span : UInt64)
  | arrayPastAddressSpace (count stride offset : UInt64)
  | badLiteral (cause : LiteralError)
  | negativeNumber (number : Int)
  | notAnInteger (number : String)
  | tooLarge (number : UInt64)
  | badBitRange (cause : BitRangeError)
  | emptyField
deriving Repr, DecidableEq, Inhabited

namespace Problem

/-- The class of a problem. -/
def kind : Problem → ProblemKind
  | badLiteral _ | negativeNumber _ | notAnInteger _ | tooLarge _ | badBitRange _ | emptyField =>
    .format
  | strideOverflow _ => .overflow
  | _ => .schema

/-- The wording of a problem, without its place. -/
def detail : Problem → String
  | emptyDocument => "document is empty"
  | rootNeitherMappingNorSequence => "root must be a mapping or a sequence of memory maps"
  | unrecognizedShape =>
    "unrecognized document shape: expected `memoryMaps`, `memoryMap` or `registerTemplates`"
  | sectionNotMapping => "every section of a multi-section document must be a mapping"
  | mapsNotAlone =>
    "`memoryMaps` must be the only section; multi-section documents use `memoryMap`"
  | sectionWithoutKnownKey =>
    "section has none of `memoryMap`, `registerTemplates`, `clocks`, `resets`, `busInterfaces`"
  | noMapOrTemplateSection => "no section declares `memoryMap` or `registerTemplates`"
  | missingKey key => s!"missing required key `{key}`"
  | expectedString => "expected a string"
  | expectedInteger => "expected an integer"
  | expectedSequence => "expected a sequence"
  | expectedMapping => "expected a mapping"
  | keysNotStrings => "mapping keys must be strings"
  | mustBeMapping what => s!"{what} must be a mapping"
  | repeatedMap name => s!"memory map `{name}` is declared more than once"
  | repeatedTemplate name => s!"register template `{name}` is defined more than once"
  | unknownUsage usage => s!"unrecognized block usage '{usage}'"
  | unknownAccess cause => cause.message
  | unknownPolarity polarity => s!"unrecognized reset polarity '{polarity}'"
  | unknownMode mode => s!"unrecognized interface mode '{mode}'"
  | nestedArray => "nested register arrays are not supported"
  | reservedWithOtherKeys => "a `reserved` placeholder must not carry other keys"
  | unsupportedWidth width =>
    s!"register size {width.toNat} is not one of 8, 16, 32 or 64 bits"
  | emptyArray => "array count must be at least 1"
  | arrayTooLarge count limit =>
    s!"array count {count.toNat} exceeds the limit of {limit.toNat}"
  | unknownTemplate name => s!"unknown register template `{name}`"
  | strideOverflow span => s!"no stride holds an instance of {span.toNat} bytes"
  | arrayPastAddressSpace count stride offset =>
    s!"{count.toNat} instances at stride {Text.hex stride} from {Text.hex offset} " ++
      "run past the address space"
  | badLiteral cause => cause.message
  | negativeNumber number => s!"negative value {number} is not allowed"
  | notAnInteger number => s!"expected an integer, found {number}"
  | tooLarge number => s!"value {number.toNat} is too large"
  | badBitRange cause => cause.message
  | emptyField => "bit width must be at least 1"

end Problem

/-- A problem **at a place**. -/
structure DocumentError where
  path : String
  problem : Problem
deriving Repr, DecidableEq, Inhabited

namespace DocumentError

/-- The wording of a problem with its class and its place. -/
def message (e : DocumentError) : String :=
  match e.problem.kind with
  | .schema => s!"schema error at {e.path}: {e.problem.detail}"
  | .format => s!"format error at {e.path}: {e.problem.detail}"
  | .overflow => s!"overflow at {e.path}: {e.problem.detail}"

end DocumentError

/-- Why a document was **not resolved**. -/
inductive ResolveError where
  | document (cause : DocumentError)
  | yaml (cause : Yaml.Error)
  | notFound (path : String)
  /-- The document is there and cannot be read. -/
  | unreadable (reason : String)
deriving Repr, DecidableEq, Inhabited

namespace ResolveError

/-- The wording of a failed resolution. -/
def message : ResolveError → String
  | document cause => cause.message
  | yaml cause => s!"YAML parse error: {cause.message}"
  | notFound path => s!"document not found: {path}"
  | unreadable reason => s!"I/O error: {reason}"

/-- The resolution did not fail for the document's sake, but **stopped at an overflow**. -/
def isOverflow : ResolveError → Bool
  | document cause => cause.problem.kind = .overflow
  | _ => false

/-- What lies behind a failed resolution, where its wording has been taken from elsewhere. -/
def cause? : ResolveError → Option String
  | yaml cause => some cause.message
  | unreadable reason => some reason
  | document _ | notFound _ => none

end ResolveError

/-- Reading a part of a document. -/
abbrev Checked := Except DocumentError

/-- Fail with a problem at a place. -/
def failAt (path : String) (problem : Problem) : Checked α := .error ⟨path, problem⟩

end RegisterMap
