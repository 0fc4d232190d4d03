import SymbolSearch.Index.Tree
import SymbolSearch.Text.LowerCase

/-!
# Symbol indexes

An index numbers the nodes and the symbols of a tree in pre-order, so that both can be looked up by
number, and keeps the names of the nodes in order, so that they can be looked up by name. Node 0 is
the nameless root. The number of a symbol is its handle.
-/

namespace SymbolSearch

structure IndexNode where
  name : String
  parent : Option Nat
  children : List Nat
  symbols : List Nat
  deriving DecidableEq, Repr, Inhabited

structure SymbolInfo where
  kind : SymbolKind
  accessibility : Accessibility
  origin : SymbolOrigin
  arity : UInt32
  parameters : List String
  parent : Option Nat
  node : Nat
  locations : List Location
  deriving DecidableEq, Repr

/-- A node under the lowercase form of its name. -/
structure NameEntry where
  folded : String
  name : String
  node : Nat
  deriving DecidableEq, Repr

/-- By lowercase form, then by name, then by node. -/
def NameEntry.order (a b : NameEntry) : Ordering :=
  ((compare a.folded b.folded).then (compare a.name b.name)).then (compare a.node b.node)

namespace SymbolNode

mutual

def nodeCount : SymbolNode → Nat
  | ⟨_, _, children⟩ => nodeCountAll children + 1

def nodeCountAll : List SymbolNode → Nat
  | [] => 0
  | node :: rest => nodeCount node + nodeCountAll rest

end

mutual

def symbolCount : SymbolNode → Nat
  | ⟨_, entries, children⟩ => entries.length + symbolCountAll children

def symbolCountAll : List SymbolNode → Nat
  | [] => 0
  | node :: rest => symbolCount node + symbolCountAll rest

end

/-- The numbers of sibling nodes, the first of which has the number `id`. -/
def siblingIds (id : Nat) : List SymbolNode → List Nat
  | [] => []
  | node :: rest => id :: siblingIds (id + node.nodeCount) rest

mutual

/-- The rows of a subtree whose root has the number `id` and whose first symbol is `handle`. -/
def rows (parent id handle : Nat) : SymbolNode → List IndexNode
  | ⟨name, entries, children⟩ =>
    ⟨name, some parent, siblingIds (id + 1) children, List.range' handle entries.length⟩
      :: rowsAll id (id + 1) (handle + entries.length) children

def rowsAll (parent id handle : Nat) : List SymbolNode → List IndexNode
  | [] => []
  | node :: rest =>
    rows parent id handle node
      ++ rowsAll parent (id + node.nodeCount) (handle + node.symbolCount) rest

end

def infoOf (containers node : Nat) (entry : Entry) : SymbolInfo :=
  ⟨entry.signature.kind, entry.accessibility, entry.signature.origin, entry.signature.arity,
    entry.signature.parameters, entry.signature.container.map (containers + ·), node,
    entry.locations⟩

mutual

/-- The symbols of a subtree, where `containers` is the first symbol of the parent node. -/
def infos (containers id handle : Nat) : SymbolNode → List SymbolInfo
  | ⟨_, entries, children⟩ =>
    entries.map (infoOf containers id)
      ++ infosAll handle (id + 1) (handle + entries.length) children

def infosAll (containers id handle : Nat) : List SymbolNode → List SymbolInfo
  | [] => []
  | node :: rest =>
    infos containers id handle node
      ++ infosAll containers (id + node.nodeCount) (handle + node.symbolCount) rest

end

end SymbolNode

structure IndexTable where
  nodes : Array IndexNode
  symbols : Array SymbolInfo
  names : Array NameEntry
  deriving DecidableEq

namespace IndexTable

/-- The names of all nodes but the root, in order. -/
def sortedNames (nodes : List IndexNode) : List NameEntry :=
  let entries := (nodes.zipIdx.drop 1).map fun (node, id) =>
    (⟨Text.lowercase node.name, node.name, id⟩ : NameEntry)
  entries.mergeSort fun a b => (a.order b).isLE

def ofForest (forest : List SymbolNode) : IndexTable :=
  let root : IndexNode := ⟨"", none, SymbolNode.siblingIds 1 forest, []⟩
  let nodes := root :: SymbolNode.rowsAll 0 1 0 forest
  ⟨nodes.toArray, (SymbolNode.infosAll 0 1 0 forest).toArray, (sortedNames nodes).toArray⟩

end IndexTable

/-- The tree below the root and its numbered form, under the fingerprint of the indexed content. -/
structure SymbolIndex where
  fingerprint : Fingerprint
  forest : List SymbolNode
  table : IndexTable := .ofForest forest
  table_eq : table = .ofForest forest := by rfl

namespace SymbolIndex

def build (project : Project) : SymbolIndex :=
  { fingerprint := project.fingerprint, forest := project.symbolForest }

/-- A build that looks at the token before each document and each reference. -/
def buildUnlessCancelled (cancelled : Bool) (project : Project) : Option SymbolIndex :=
  if cancelled ∧ ¬ (project.info.documents.isEmpty ∧ project.info.metadataReferences.isEmpty) then
    none
  else some (build project)

def nodeCount (index : SymbolIndex) : Nat := index.table.nodes.size

def symbolCount (index : SymbolIndex) : Nat := index.table.symbols.size

def node? (index : SymbolIndex) (id : Nat) : Option IndexNode := index.table.nodes[id]?

def info? (index : SymbolIndex) (handle : Nat) : Option SymbolInfo := index.table.symbols[handle]?

def nodeName (index : SymbolIndex) (id : Nat) : String := ((index.node? id).map (·.name)).getD ""

def name? (index : SymbolIndex) (handle : Nat) : Option String :=
  (index.info? handle).map fun info => index.nodeName info.node

instance : BEq SymbolIndex where
  beq a b := a.fingerprint == b.fingerprint && a.table == b.table

end SymbolIndex

end SymbolSearch
