import RegisterMap.Register

/-!
# Clocks, Resets and Bus Interfaces

A bus interface names the clock, the reset and the memory map that it belongs to. Such a reference
is a name together with the kind of entity it expects; nothing is owned and nothing has to exist.
-/

namespace RegisterMap

/-- The **kinds of entity** that a reference may name. -/
inductive EntityKind where
  | clock
  | reset
  | memoryMap
  | busInterface
deriving Repr, DecidableEq, Inhabited

namespace EntityKind

def all : List EntityKind := [clock, reset, memoryMap, busInterface]

/-- The kind as a reader is told about it. -/
def label : EntityKind → String
  | clock => "clock"
  | reset => "reset"
  | memoryMap => "memory map"
  | busInterface => "bus interface"

/-- The canonical spelling. -/
def name : EntityKind → String
  | clock => "clock"
  | reset => "reset"
  | memoryMap => "memory-map"
  | busInterface => "bus-interface"

end EntityKind

/-- A **reference by name** to an entity of one kind. -/
structure NamedRef where
  kind : EntityKind
  name : String
deriving Repr, DecidableEq, Inhabited

/-- A clock source. -/
structure Clock where
  name : String
  frequencyHz : Option UInt64 := none
deriving Repr, DecidableEq, Inhabited

/-- The level at which a reset signal is asserted. -/
inductive ResetPolarity where
  | activeHigh
  | activeLow
deriving Repr, DecidableEq

namespace ResetPolarity

instance : Inhabited ResetPolarity := ⟨activeLow⟩

def all : List ResetPolarity := [activeHigh, activeLow]

/-- The canonical spelling. -/
def name : ResetPolarity → String
  | activeHigh => "active-high"
  | activeLow => "active-low"

end ResetPolarity

/-- A reset signal. -/
structure Reset where
  name : String
  polarity : ResetPolarity := .activeLow
deriving Repr, DecidableEq, Inhabited

/-- The direction of a bus interface. -/
inductive InterfaceMode where
  | slave
  | master
deriving Repr, DecidableEq, Inhabited

namespace InterfaceMode

def all : List InterfaceMode := [slave, master]

/-- The canonical spelling. -/
def name : InterfaceMode → String
  | slave => "slave"
  | master => "master"

end InterfaceMode

/-- A **bus interface** that gives access to a memory map. -/
structure BusInterface where
  name : String
  /-- What the names of its physical signals start with. -/
  signalsStart : String
  protocol : Option String := none
  mode : InterfaceMode := .slave
  baseAddress : Option Address := none
  /-- Set on interfaces that an interface array contributed. -/
  arrayInstance : Option ArrayInstance := none
  clock : Option NamedRef := none
  reset : Option NamedRef := none
  memoryMap : Option NamedRef := none
deriving Repr, DecidableEq, Inhabited

namespace BusInterface

/-- The references of the interface: clock, then reset, then memory map. -/
def references (i : BusInterface) : List NamedRef :=
  i.clock.toList ++ i.reset.toList ++ i.memoryMap.toList

end BusInterface

end RegisterMap
