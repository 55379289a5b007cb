import RegisterMap.Model.Fingerprint

/-!
# Models in Use

A model in use remembers what it was asked. The symbol table is built at the first look-up of a
name, and a reference keeps the answer to whether it resolves from the first time it is asked. What
is remembered is no part of what the model says: equality passes over it, and neither the JSON of
the model nor its fingerprint shows it.
-/

namespace RegisterMap

/-! ### Symbol tables -/

/-- The declared names, each with the kinds it is declared under. -/
abbrev SymbolTable := List (String × List EntityKind)

namespace SymbolTable

/-- Declare `name` under `kind`. A name has each of its kinds once. -/
def declare (table : SymbolTable) (name : String) (kind : EntityKind) : SymbolTable :=
  match table with
  | [] => [(name, [kind])]
  | (n, kinds) :: rest =>
    if n = name then (n, if kinds.contains kind then kinds else kinds ++ [kind]) :: rest
    else (n, kinds) :: declare rest name kind

/-- The kinds of a name, none for a name that is not declared. -/
def kinds (table : SymbolTable) (name : String) : List EntityKind := (table.lookup name).getD []

/-- The **symbol table** of a model: its clocks, then its resets, maps and interfaces. -/
def ofModel (m : Model) : SymbolTable :=
  EntityKind.all.foldl (fun table kind => (m.namesOf kind).foldl (declare · · kind) table) []

end SymbolTable

/-- What a model in use does while its symbol table may not be built yet. -/
abbrev Remembering := StateM (Option SymbolTable)

namespace Model

/-- The kinds under which `name` is declared. The first look-up builds the symbol table. -/
def lookupKinds (m : Model) (name : String) : Remembering (List EntityKind) := do
  match ← get with
  | some table => pure (table.kinds name)
  | none =>
    let table := SymbolTable.ofModel m
    set (some table)
    pure (table.kinds name)

/-- Look a reference up in the symbol table. -/
def lookupReference (m : Model) (reference : NamedRef) : Remembering Resolution := do
  let kinds ← m.lookupKinds reference.name
  if kinds.contains reference.kind then pure .resolved
  else if kinds.isEmpty then pure .missing
  else pure (.wrongKind kinds)

end Model

/-! ### References -/

/-- A reference that **remembers** whether it resolves, once it has been asked. -/
structure CachedRef extends NamedRef where
  resolved : Option Bool := none
deriving Repr, Inhabited

namespace CachedRef

/-- References are equal if they name the same entity, whatever they remember. -/
instance : BEq CachedRef := ⟨fun a b => a.kind == b.kind && a.name == b.name⟩

/-- Ask whether the reference resolves in `m`. It answers from memory if it can, and then does not
look anything up. -/
def ask (m : Model) (r : CachedRef) : Remembering (Bool × CachedRef) := do
  match r.resolved with
  | some answer => pure (answer, r)
  | none =>
    let resolution ← m.lookupReference r.toNamedRef
    let answer := resolution == .resolved
    pure (answer, { r with resolved := some answer })

end CachedRef

/-! ### Interfaces and models -/

/-- A bus interface whose references remember. -/
structure CachedInterface where
  name : String
  signalsStart : String
  protocol : Option String := none
  mode : InterfaceMode := .slave
  baseAddress : Option Address := none
  arrayInstance : Option ArrayInstance := none
  clock : Option CachedRef := none
  reset : Option CachedRef := none
  memoryMap : Option CachedRef := none
deriving Repr, BEq, Inhabited

namespace CachedInterface

/-- What the interface says, without what it remembers. -/
def plain (i : CachedInterface) : BusInterface where
  name := i.name
  signalsStart := i.signalsStart
  protocol := i.protocol
  mode := i.mode
  baseAddress := i.baseAddress
  arrayInstance := i.arrayInstance
  clock := i.clock.map (·.toNamedRef)
  reset := i.reset.map (·.toNamedRef)
  memoryMap := i.memoryMap.map (·.toNamedRef)

/-- The interface with nothing remembered. -/
def ofInterface (i : BusInterface) : CachedInterface where
  name := i.name
  signalsStart := i.signalsStart
  protocol := i.protocol
  mode := i.mode
  baseAddress := i.baseAddress
  arrayInstance := i.arrayInstance
  clock := i.clock.map ({ toNamedRef := · })
  reset := i.reset.map ({ toNamedRef := · })
  memoryMap := i.memoryMap.map ({ toNamedRef := · })

/-- The references of the interface: clock, then reset, then memory map. -/
def references (i : CachedInterface) : List CachedRef :=
  i.clock.toList ++ i.reset.toList ++ i.memoryMap.toList

/-- Ask every reference of the interface whether it resolves. -/
def ask (m : Model) (i : CachedInterface) : Remembering CachedInterface := do
  let clock ← i.clock.mapM fun r => Prod.snd <$> r.ask m
  let reset ← i.reset.mapM fun r => Prod.snd <$> r.ask m
  let memoryMap ← i.memoryMap.mapM fun r => Prod.snd <$> r.ask m
  pure { i with clock, reset, memoryMap }

end CachedInterface

/-- A model **in use**: the model, with what it remembers. -/
structure CachedModel where
  memoryMaps : List MemoryMap := []
  clocks : List Clock := []
  resets : List Reset := []
  busInterfaces : List CachedInterface := []
  /-- The symbol table, once it has been needed. -/
  symbols : Option SymbolTable := none
deriving Repr, Inhabited

namespace CachedModel

/-- Models are equal if their parts are, whatever they remember. -/
instance : BEq CachedModel :=
  ⟨fun a b => a.memoryMaps == b.memoryMaps && a.clocks == b.clocks && a.resets == b.resets &&
    a.busInterfaces == b.busInterfaces⟩

/-- What the model says, without what it remembers. -/
def plain (m : CachedModel) : Model where
  memoryMaps := m.memoryMaps
  clocks := m.clocks
  resets := m.resets
  busInterfaces := m.busInterfaces.map (·.plain)

/-- The model with nothing remembered. -/
def ofModel (m : Model) : CachedModel where
  memoryMaps := m.memoryMaps
  clocks := m.clocks
  resets := m.resets
  busInterfaces := m.busInterfaces.map .ofInterface

/-- Ask every reference whether it resolves. -/
def ask (m : CachedModel) : CachedModel :=
  let (busInterfaces, symbols) := (m.busInterfaces.mapM (CachedInterface.ask m.plain)).run m.symbols
  { m with busInterfaces, symbols }

/-! ### Encoding -/

/-- The model as JSON. What it remembers is left out. -/
def toJson (m : CachedModel) : Json := m.plain.toJson

/-- Decode a model. It remembers nothing yet. -/
def ofJson? (j : Json) : Option CachedModel := (Model.ofJson? j).map ofModel

/-- The text that the fingerprint covers. -/
def canonicalText (m : CachedModel) : String := m.toJson.compact

/-- The **fingerprint** of the model. -/
def fingerprint (m : CachedModel) : String := m.toJson.fingerprint

end CachedModel

end RegisterMap
