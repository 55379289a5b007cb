import RegisterMap.Yaml.Lexer
import RegisterMap.Yaml.Scalar
import RegisterMap.Yaml.Tree

/-!
# From YAML Text to Values

A document's tree becomes a value once its scalars have types, its aliases are replaced by what they
stand for, and its mappings are known to have no key twice.

## Conventions

Collections nest at most 128 deep, counted along aliases, and a document is refused once it has
followed a hundred times more aliases than its size.
-/

namespace RegisterMap.Yaml

namespace Tree

mutual

/-- Every **anchored tree** with its slot, in the order in which the trees start. -/
def anchored : Tree → List (Nat × Tree)
  | .seq p items => (p.anchor.toList.map (·, .seq p items)) ++ anchoredItems items
  | .map p entries => (p.anchor.toList.map (·, .map p entries)) ++ anchoredEntries entries
  | .scalar p text plain => p.anchor.toList.map (·, .scalar p text plain)
  | .alias _ => []

/-- The anchored trees of a sequence's items. -/
def anchoredItems : List Tree → List (Nat × Tree)
  | [] => []
  | t :: ts => anchored t ++ anchoredItems ts

/-- The anchored trees of a mapping's entries. -/
def anchoredEntries : List (Tree × Tree) → List (Nat × Tree)
  | [] => []
  | (k, v) :: rest => anchored k ++ anchored v ++ anchoredEntries rest

end

end Tree

/-- What building a value needs to know: the trees with anchors, the last of a slot first, and how
many aliases may be followed. -/
structure Surroundings where
  anchors : List (Nat × Tree)
  aliasLimit : Nat

/-- A step of building a value; the state counts the aliases followed. -/
abbrev Builder := StateT Nat (Except Error)

namespace Builder

/-- Follow an alias. -/
def follow (env : Surroundings) (slot : Nat) : Builder Tree := do
  let followed := (← get) + 1
  set followed
  if followed > env.aliasLimit then throw .tooManyAliases
  match env.anchors.lookup slot with
  | some t => return t
  | none => throw .unknownAnchor

/-- The value of a scalar. A local tag says nothing about its type. -/
def scalarValue (p : Properties) (text : String) (plain : Bool) : Except Error Value :=
  match p.tag.filter (!·.isLocal) with
  | some tag => repositoryValue tag text
  | none => if plain then plainValue text else .ok (.str text)

/-- A value under the local tag of its node, if the node has one with a name. -/
def underTag (p : Properties) (v : Value) : Value :=
  match p.tag.bind localName? with
  | some name => .tagged name v
  | none => v

/-- Refuse a key that the entries so far have already. -/
def checkKey (acc : List (Value × Value)) (key : Value) : Builder Unit :=
  if acc.any fun e => Value.same e.1 key then throw .duplicateKey else pure ()

/-- Build the entries of a mapping in order. -/
def entries (build : Tree → Builder Value) :
    List (Value × Value) → List (Tree × Tree) → Builder (List (Value × Value))
  | acc, [] => return acc.reverse
  | acc, (k, v) :: rest => do
    let k ← build k
    checkKey acc k
    let v ← build v
    entries build ((k, v) :: acc) rest

/-- Build the items of a sequence in order. -/
def items (build : Tree → Builder Value) : List Value → List Tree → Builder (List Value)
  | acc, [] => return acc.reverse
  | acc, t :: ts => do items build ((← build t) :: acc) ts

/-- The tree that a tree stands for. -/
def target (env : Surroundings) : Tree → Builder Tree
  | .alias slot => follow env slot
  | tree => return tree

/-- Build the value of a tree that is no alias; `below` builds the trees in a collection, where
there may be one. -/
def node (below : Option (Tree → Builder Value)) : Tree → Builder Value
  | .alias _ => throw .unknownAnchor
  | .scalar p text plain => return underTag p (← scalarValue p text plain)
  | .seq p trees =>
    match below with
    | none => throw .tooDeep
    | some build => return underTag p (.seq (← items build [] trees))
  | .map p trees =>
    match below with
    | none => throw .tooDeep
    | some build => return underTag p (.map (← entries build [] trees))

/-- Build the **value of a tree** that may hold `depth` levels of collections. -/
def value (env : Surroundings) : Nat → Tree → Builder Value
  | 0, tree => do node none (← target env tree)
  | depth + 1, tree => do node (some (value env depth)) (← target env tree)

end Builder

/-- How deep collections may nest. -/
def maxDepth : Nat := 128

/-- The **value of a document**. -/
def Document.value (d : Document) : Except Error Value :=
  let env : Surroundings :=
    { anchors := d.root.anchored.reverse, aliasLimit := 100 * d.size }
  ((Builder.value env maxDepth d.root).run 0).map (·.1)

/-- The values of the documents of a text, those of value null left out. -/
def parseStream (text : String) : Except Error (List Value) := do
  let documents ← readTrees (← tokenize text)
  let values ← documents.mapM (·.value)
  return values.filter (!·.isNull)

end RegisterMap.Yaml
