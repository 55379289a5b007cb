import RegisterMap.Toml.Value

/-!
# Defining Tables

A TOML document defines its tables piece by piece: by headers, by dotted keys, and by values. Every
table and every value is defined once; what a piece may add to depends on how the table in question
came to be.
-/

namespace RegisterMap.Toml

/-- How a table **came to be**. -/
inductive Origin where
  /-- By a header for a table inside it. -/
  | implied
  /-- By a dotted key. -/
  | dotted
  /-- By a header of its own. -/
  | header
deriving Repr, DecidableEq, Inhabited

/-- A part of a document that is **being defined**. -/
inductive Node where
  | value (value : Value)
  | table (origin : Origin) (entries : List (String × Node))
  /-- The tables of an array of tables, in order. -/
  | tables (elements : List (List (String × Node)))
deriving Repr, Inhabited

/-- The entries of a table that is being defined. -/
abbrev Nodes := List (String × Node)

namespace Nodes

/-- The same entries with another node under `key`, at the end if it is new. -/
def put (nodes : Nodes) (key : String) (node : Node) : Nodes :=
  if nodes.any (·.1 == key) then nodes.map fun e => if e.1 == key then (key, node) else e
  else nodes ++ [(key, node)]

/-- Change the table at a path of **header keys**. Tables on the way are implied where they do not
exist; an array of tables stands for its last one. -/
def inTable (change : Nodes → Option Nodes) : List String → Nodes → Option Nodes
  | [], nodes => change nodes
  | key :: path, nodes =>
    match nodes.lookup key with
    | none => do return nodes.put key (.table .implied (← inTable change path []))
    | some (.table origin sub) => do
      return nodes.put key (.table origin (← inTable change path sub))
    | some (.tables elements) => do
      let last ← elements.getLast?
      return nodes.put key (.tables (elements.dropLast ++ [← inTable change path last]))
    | some (.value _) => none

/-- Open a **table** by its header. It may be there already if it was only implied. -/
def openTable (path : List String) (key : String) (nodes : Nodes) : Option Nodes :=
  nodes.inTable (fun parent =>
    match parent.lookup key with
    | none => some (parent.put key (.table .header []))
    | some (.table .implied sub) => some (parent.put key (.table .header sub))
    | some _ => none) path

/-- Open a further table of an **array of tables**. -/
def openElement (path : List String) (key : String) (nodes : Nodes) : Option Nodes :=
  nodes.inTable (fun parent =>
    match parent.lookup key with
    | none => some (parent.put key (.tables [[]]))
    | some (.tables elements) => some (parent.put key (.tables (elements ++ [[]])))
    | some _ => none) path

/-- Add a value under a **dotted key**. The table that gets it is made by dotted keys alone. -/
def define (key : String) (node : Node) : List String → Nodes → Option Nodes
  | [], nodes =>
    if (nodes.lookup key).isSome then none else some (nodes.put key node)
  | name :: path, nodes =>
    match nodes.lookup name with
    | none => do return nodes.put name (.table .dotted (← define key node path []))
    | some (.table origin sub) => do
      guard (origin != .header)
      guard (origin == .dotted || !path.isEmpty)
      return nodes.put name (.table origin (← define key node path sub))
    | some (.tables elements) => do
      guard (!path.isEmpty)
      let last ← elements.getLast?
      return nodes.put name (.tables (elements.dropLast ++ [← define key node path last]))
    | some (.value _) => none

end Nodes

/-! ### Finished tables -/

namespace Node

mutual

/-- The value of a **finished** node. -/
def finish : Node → Value
  | .value v => v
  | .table _ entries => .table (finishEntries entries)
  | .tables elements => .arr (finishElements elements)

/-- The entries of a finished table. -/
def finishEntries : List (String × Node) → List (String × Value)
  | [] => []
  | (key, node) :: rest => (key, finish node) :: finishEntries rest

/-- The tables of a finished array of tables. -/
def finishElements : List (List (String × Node)) → List Value
  | [] => []
  | entries :: rest => .table (finishEntries entries) :: finishElements rest

end

end Node

end RegisterMap.Toml
