import RegisterMap.Document.Draft
import RegisterMap.Options

/-!
# From Documents to Drafts

The parts of a document are read from the outside in, and the first problem met ends the reading.
The order in which the keys of a part are looked at is therefore part of what this module says.

## Conventions

A part with a name is located by the names around it, `map.block.register.field`, as soon as its
name is known; before that, and for parts without a name, the path is the one of keys and item
numbers.
-/

namespace RegisterMap

/-- The register **widths** that a bus can transfer. -/
def supportedWidths : List UInt32 := [8, 16, 32, 64]

/-! ### Keywords -/

/-- A keyword: letter case and surrounding blanks do not count. -/
def Located.asKeyword (n : Located) : Checked String := do
  return Text.lower (Text.trim (← n.asStr))

/-- The usage of a block. -/
def readUsage (n : Located) : Checked Usage := do
  let word ← n.asKeyword
  if word ∈ ["register", "registers"] then return .register
  else if word = "memory" then return .memory
  else if word = "reserved" then return .reserved
  else n.fail (.unknownUsage word)

/-- An access policy. -/
def readAccess (n : Located) : Checked AccessPolicy := do
  match AccessPolicy.parse (← n.asStr) with
  | .ok policy => return policy
  | .error e => n.fail (.unknownAccess e)

/-- The polarity of a reset. -/
def readPolarity (n : Located) : Checked ResetPolarity := do
  let word ← n.asKeyword
  if word ∈ ["active-high", "activehigh", "high"] then return .activeHigh
  else if word ∈ ["active-low", "activelow", "low"] then return .activeLow
  else n.fail (.unknownPolarity word)

/-- The mode of a bus interface. -/
def readMode (n : Located) : Checked InterfaceMode := do
  let word ← n.asKeyword
  if word ∈ ["slave", "target", "subordinate"] then return .slave
  else if word ∈ ["master", "initiator", "manager"] then return .master
  else n.fail (.unknownMode word)

/-- The number of instances of an array: at least one, and no more than the options allow. -/
def readCount (options : Options) (n : Located) : Checked UInt64 := do
  let count ← (← n.require "count").asNat64
  if count = 0 then n.fail .emptyArray
  else if options.maxArrayCount < count then
    n.fail (.arrayTooLarge count options.maxArrayCount)
  else return count

/-! ### Fields and registers -/

/-- Where a field says its bits are: a range, an offset with a width, or a width alone. The width is
one bit where none is given. -/
def readPlacement (n : Located) : Checked Placement := do
  let width : Checked UInt32 := do return (← n.optNat32 ["bitWidth", "width"]).getD 1
  match n.child? "bits", n.child? "bitOffset" with
  | some bits, _ => return .range (← bits.asStr)
  | none, some offset => do
    let offset ← offset.asNat32
    return .explicit offset (← width)
  | none, none => return .auto (← width)

/-- A **bit field** of the register at `register`. -/
def readField (register : String) (n : Located) : Checked DraftField := do
  n.expectMapping "bit field"
  let name ← n.name
  let n := n.renamed s!"{register}.{name}"
  let placement ← readPlacement n
  let access ← (n.child? "access").mapM readAccess
  let description ← n.optStr "description"
  let resetValue ← n.optNat64 ["resetValue", "reset"]
  return { path := n.path, name, description, placement, access, resetValue }

/-- A **register** of the list at `parent`. -/
def readRegister (options : Options) (parent : String) (n : Located) : Checked DraftRegister := do
  let name ← n.name
  let n := n.renamed s!"{parent}.{name}"
  let width := (← n.optNat32 ["size"]).getD options.defaultRegisterSize
  if width ∉ supportedWidths then n.fail (.unsupportedWidth width)
  let access := (← (n.child? "access").mapM readAccess).getD options.defaultAccess
  let fields ← (← n.optSeq "fields").mapM (readField n.path)
  let description ← n.optStr "description"
  let offset ← n.optNat64 ["offset", "addressOffset"]
  let resetValue ← n.optNat64 ["resetValue", "reset"]
  return { path := n.path, name, description, offset, width, access, resetValue, fields }

/-! ### Register lists -/

/-- A gap of reserved bytes. -/
def readReserved (item bytes : Located) : Checked DraftEntry := do
  if item.stringKeyCount ≠ 1 then item.fail .reservedWithOtherKeys
  return .reserved item.path (← bytes.asNat64)

/-- Read one entry of a register list; `array` reads the arrays in it. An entry with `generateArray`
or `count` is an array, and one with `reserved` is a gap. -/
def readEntry (options : Options) (parent : String)
    (array : Located → Option Located → Checked DraftEntry) (item : Located) :
    Checked DraftEntry := do
  item.expectMapping "register entry"
  match item.child? "generateArray", item.has "count", item.child? "reserved" with
  | some generate, _, _ => array item (some generate)
  | none, true, _ => array item none
  | none, false, some bytes => readReserved item bytes
  | none, false, none => return .register (← readRegister options parent item)

/-- A register list **without arrays**, such as the body of an array or a template. -/
def readFlatEntries (options : Options) (parent : String) (list : Located) :
    Checked (List DraftEntry) := do
  (← list.asSeq).mapM (readEntry options parent fun item _ => item.fail .nestedArray)

/-- The parts of an array that follow its name and body. -/
def readArrayParts (options : Options) (n : Located) (name : String) (offsetKeys : List String)
    (body : Checked (ArrayBody DraftEntry)) : Checked (DraftArray DraftEntry) := do
  let offset ← n.optNat64 offsetKeys
  let count ← readCount options n
  let stride ← n.optNat64 ["stride"]
  let indexStart := (← n.optNat64 ["indexStart"]).getD 0
  let naming ← n.optStr "naming"
  let body ← body
  return { path := n.path, name, offset, count, stride, indexStart, naming, body }

/-- An array that lists its own registers. -/
def readInlineArray (options : Options) (parent : String) (n : Located) :
    Checked (DraftArray DraftEntry) := do
  let name ← n.name
  let n := n.renamed s!"{parent}.{name}"
  let body ← n.require "registers"
  readArrayParts options n name ["offset", "addressOffset"] do
    return .inline (← readFlatEntries options n.path body)

/-- An array that repeats a template. -/
def readTemplateArray (options : Options) (parent : String) (n : Located) :
    Checked (DraftArray DraftEntry) := do
  n.expectMapping "generateArray"
  let name ← n.name
  let n := n.renamed s!"{parent}.{name}"
  let template ← (← n.require "template").asStr
  readArrayParts options n name ["addressOffset", "offset"] (return .template template)

/-- The **register list** of a block. -/
def readEntries (options : Options) (parent : String) (list : Located) :
    Checked (List DraftEntry) := do
  let array (item : Located) (generate : Option Located) : Checked DraftEntry :=
    match generate with
    | some generate => return .array (← readTemplateArray options parent generate)
    | none => return .array (← readInlineArray options parent item)
  (← list.asSeq).mapM (readEntry options parent array)

/-! ### Blocks and maps -/

/-- A **block** of the map called `map`. -/
def readBlock (options : Options) (map : String) (n : Located) : Checked DraftBlock := do
  n.expectMapping "address block"
  let name ← n.name
  let n := n.renamed s!"{map}.{name}"
  let baseOffset ← match ← n.optNat64 ["offset", "baseAddress"] with
    | some offset => pure offset
    | none => n.fail (.missingKey "offset")
  let usage := (← (n.child? "usage").mapM readUsage).getD .register
  let entries ← match n.child? "registers" with
    | some list => readEntries options n.path list
    | none => pure []
  let description ← n.optStr "description"
  let size ← n.optNat64 ["range", "size"]
  return { path := n.path, name, description, baseOffset, size, usage, entries }

/-- A **memory map**. -/
def readMap (options : Options) (n : Located) : Checked DraftMap := do
  n.expectMapping "memory map"
  let name ← n.name
  let n := n.renamed name
  let blocks ← (← n.optSeq "addressBlocks").mapM (readBlock options name)
  let description ← n.optStr "description"
  return { name, description, blocks }

/-! ### Clocks, resets and interfaces -/

/-- A clock: its name alone, or a mapping. -/
def readClock (n : Located) : Checked Clock := do
  match n.value.asStr? with
  | some name => return { name }
  | none => do
    n.expectMapping "clock"
    let name ← n.name
    let frequencyHz ← n.optNat64 ["frequency", "frequencyHz"]
    return { name, frequencyHz }

/-- A reset: its name alone, or a mapping. -/
def readReset (n : Located) : Checked Reset := do
  match n.value.asStr? with
  | some name => return { name }
  | none => do
    n.expectMapping "reset"
    let polarity := (← (n.child? "polarity").mapM readPolarity).getD .activeLow
    let name ← n.name
    return { name, polarity }

/-- How an interface is replicated. -/
def readInterfaceArray (options : Options) (n : Located) : Checked DraftInterfaceArray := do
  n.expectMapping "interface array"
  let count ← readCount options n
  let stride := (← n.optNat64 ["stride"]).getD 0
  let indexStart := (← n.optNat64 ["indexStart"]).getD 0
  let naming ← n.optStr "naming"
  let physicalPattern ← n.optStr "prefix"
  return { count, stride, indexStart, naming, physicalPattern }

/-- The string at the first of two keys that has one; the second is not looked at otherwise. -/
def readEither (n : Located) (first second : String) : Checked (Option String) := do
  match ← n.optStr first with
  | some s => return some s
  | none => n.optStr second

/-- A **bus interface**. -/
def readInterface (options : Options) (n : Located) : Checked DraftInterface := do
  n.expectMapping "bus interface"
  let name ← n.name
  let n := n.renamed name
  let mode := (← (n.child? "mode").mapM readMode).getD .slave
  let array ← (n.child? "array").mapM (readInterfaceArray options)
  let protocol ← readEither n "protocol" "type"
  let baseAddress ← n.optNat64 ["baseAddress", "offset"]
  let signalsStart ← readEither n "physicalPrefix" "prefix"
  let clock ← n.optStr "clock"
  let reset ← n.optStr "reset"
  let memoryMap ← n.optStr "memoryMap"
  let path := n.path
  return {
    path, name, protocol, mode, baseAddress, signalsStart, clock, reset, memoryMap, array }

/-! ### Documents -/

namespace Draft

/-- Add a map whose name has to be new. -/
def addMap (d : Draft) (map : DraftMap) : Checked Draft :=
  if d.maps.any (·.name == map.name) then failAt map.name (.repeatedMap map.name)
  else .ok { d with maps := d.maps ++ [map] }

/-- Add a map, or its blocks to the map of the same name. The first description stays. -/
def mergeMap (d : Draft) (map : DraftMap) : Draft :=
  if d.maps.any (·.name == map.name) then
    { d with maps := d.maps.map fun m =>
      if m.name == map.name then
        { m with
          description := m.description.or map.description
          blocks := m.blocks ++ map.blocks }
      else m }
  else { d with maps := d.maps ++ [map] }

/-- Add the clocks, resets and interfaces of a section. -/
def addShared (options : Options) (d : Draft) (root : Located) : Checked Draft := do
  let clocks ← (← root.optSeq "clocks").mapM readClock
  let resets ← (← root.optSeq "resets").mapM readReset
  let interfaces ← (← root.optSeq "busInterfaces").mapM (readInterface options)
  return { d with
    clocks := d.clocks ++ clocks
    resets := d.resets ++ resets
    interfaces := d.interfaces ++ interfaces }

/-- Add one template, whose name has to be new. -/
def addTemplate (options : Options) (d : Draft) (entry : String × Located) : Checked Draft := do
  let (name, body) := entry
  let entries ← readFlatEntries options body.path body
  if (d.template? name).isSome then body.fail (.repeatedTemplate name)
  return { d with templates := d.templates ++ [{ name, path := body.path, entries }] }

/-- Read a map and add it. -/
def readAndAddMap (options : Options) (d : Draft) (n : Located) : Checked Draft := do
  d.addMap (← readMap options n)

/-- Read a map and merge it. -/
def readAndMergeMap (options : Options) (d : Draft) (n : Located) : Checked Draft := do
  return d.mergeMap (← readMap options n)

/-- The draft of a document in the **current** shape. -/
def ofCurrent (options : Options) (value : Yaml.Value) : Checked Draft := do
  let root : Located := ⟨value, "<root>"⟩
  let maps ←
    if root.isMapping then root.optSeq "memoryMaps" else (root.renamed "memoryMaps").asSeq
  let d ← maps.foldlM (readAndAddMap options) { shape := .current }
  if root.isMapping then d.addShared options root else return d

/-- Add one section of a document in the legacy shape: its templates, its maps, and the rest. -/
def addSection (options : Options) (d : Draft) (root : Located) : Checked Draft := do
  let templates ← match root.child? "registerTemplates" with
    | some templates => templates.entries
    | none => pure []
  let d ← templates.foldlM (addTemplate options) d
  let maps ← match root.child? "memoryMap" with
    | some maps => maps.asSeqOrOne
    | none => pure []
  let d ← maps.foldlM (readAndMergeMap options) d
  d.addShared options root

/-- The draft of a document in the **legacy** shape. -/
def ofLegacy (options : Options) (sections : List Yaml.Value) : Checked Draft :=
  (sections.mapIdx fun i value => (⟨value, Shape.sectionPath i⟩ : Located)).foldlM
    (addSection options) { shape := .legacy }

/-- The **draft of a document** that consists of these sections. -/
def ofSections (options : Options) (sections : List Yaml.Value) : Checked Draft := do
  match ← Shape.detect sections, sections with
  | .current, value :: _ => ofCurrent options value
  | .current, [] => failAt "<root>" .emptyDocument
  | .legacy, _ => ofLegacy options sections

end Draft

end RegisterMap
