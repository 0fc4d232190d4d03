import SymbolSearch.Project.Info

/-!
# Symbol trees

All declarations of a project merged into one tree. A node stands for a name inside the name of its
parent, and lists the symbols that have this path: declarations with the same container, signature
and origin are one symbol, whatever the number of places at which parts of it are declared.

The tree is built level by level. A level is a list of occurrences of named declarations; those of
one name form a node, and what they contain is the level below the node.
-/

namespace SymbolSearch

/-- What makes two declarations of one path the same symbol. The container is the position of the
containing symbol on the parent node. -/
structure Signature where
  kind : SymbolKind
  arity : UInt32
  parameters : List String
  origin : SymbolOrigin
  container : Option Nat
  deriving DecidableEq, Repr

/-- A symbol of a node. -/
structure Entry where
  signature : Signature
  accessibility : Accessibility
  locations : List Location
  deriving DecidableEq, Repr

structure SymbolNode where
  name : String
  entries : List Entry
  children : List SymbolNode

/-- A named declaration and where it was found. -/
structure Occurrence where
  declaration : Declaration
  origin : SymbolOrigin
  container : Option Nat
  document : Option DocumentId

mutual

def Declaration.weight : Declaration → Nat
  | ⟨_, _, _, _, _, _, children⟩ => weightAll children + 1

def weightAll : List Declaration → Nat
  | [] => 0
  | declaration :: rest => declaration.weight + weightAll rest

end

mutual

/-- The named declarations that a declaration contributes to the level it stands on: itself, or if
its name is blank, what it contains. Nothing is seen of a library's hidden declarations. -/
def Declaration.exposed (origin : SymbolOrigin) : Declaration → List Declaration
  | ⟨name, kind, accessibility, arity, parameters, range, children⟩ =>
    if origin = .metadata ∧ ¬ accessibility.isExternallyVisible then []
    else if Text.isBlank name then exposedAll origin children
    else [⟨Text.trim name, kind, accessibility, arity, parameters, range, children⟩]

def exposedAll (origin : SymbolOrigin) : List Declaration → List Declaration
  | [] => []
  | declaration :: rest => declaration.exposed origin ++ exposedAll origin rest

end

theorem weightAll_append (a b : List Declaration) :
    weightAll (a ++ b) = weightAll a + weightAll b := by
  induction a with
  | nil => simp [weightAll]
  | cons d a ih => simp [weightAll, ih]; omega

mutual

theorem Declaration.weightAll_exposed (origin : SymbolOrigin) :
    ∀ declaration : Declaration, weightAll (declaration.exposed origin) ≤ declaration.weight
  | ⟨name, kind, accessibility, arity, parameters, range, children⟩ => by
    have ih := weightAll_exposedAll origin children
    unfold Declaration.exposed
    split
    · simp [weightAll]
    · split
      · simp only [Declaration.weight]; omega
      · simp [weightAll, Declaration.weight]

theorem weightAll_exposedAll (origin : SymbolOrigin) :
    ∀ declarations : List Declaration,
      weightAll (exposedAll origin declarations) ≤ weightAll declarations
  | [] => by simp [exposedAll]
  | declaration :: rest => by
    have hd := declaration.weightAll_exposed origin
    have hr := weightAll_exposedAll origin rest
    simp only [exposedAll, weightAll_append, weightAll]
    omega

end

namespace Occurrence

def name (occurrence : Occurrence) : String := occurrence.declaration.name

def signature (occurrence : Occurrence) : Signature :=
  let declaration := occurrence.declaration
  ⟨declaration.kind, declaration.arity, declaration.parameters, occurrence.origin,
    occurrence.container⟩

/-- Only what is declared in a document has a location. -/
def location? (occurrence : Occurrence) : Option Location :=
  occurrence.document.map (⟨·, occurrence.declaration.range⟩)

/-- What the declaration contains, as occurrences inside the symbol at the given position. -/
def inner (position : Nat) (occurrence : Occurrence) : List Occurrence :=
  (exposedAll occurrence.origin occurrence.declaration.children).map fun declaration =>
    { occurrence with declaration, container := some position }

def totalWeight (occurrences : List Occurrence) : Nat :=
  weightAll (occurrences.map (·.declaration))

theorem totalWeight_inner_lt (position : Nat) (occurrence : Occurrence) :
    totalWeight (occurrence.inner position) < occurrence.declaration.weight := by
  have h := weightAll_exposedAll occurrence.origin occurrence.declaration.children
  have hmap : (occurrence.inner position).map (·.declaration)
      = exposedAll occurrence.origin occurrence.declaration.children := by
    simp [inner, Function.comp_def]
  obtain ⟨⟨name, kind, accessibility, arity, parameters, range, children⟩, origin, container,
    document⟩ := occurrence
  simp only [totalWeight, hmap, Declaration.weight]
  simp only at h
  omega

theorem totalWeight_flatMap_le (f : Occurrence → List Occurrence)
    (hf : ∀ o, totalWeight (f o) < o.declaration.weight) (occurrences : List Occurrence) :
    totalWeight (occurrences.flatMap f) + occurrences.length ≤ totalWeight occurrences := by
  induction occurrences with
  | nil => simp [totalWeight, weightAll]
  | cons o rest ih =>
    have h := hf o
    simp only [totalWeight, List.flatMap_cons, List.map_append, weightAll_append, List.map_cons,
      weightAll, List.length_cons] at h ih ⊢
    omega

theorem totalWeight_filter_le (p : Occurrence → Bool) (occurrences : List Occurrence) :
    totalWeight (occurrences.filter p) ≤ totalWeight occurrences := by
  induction occurrences with
  | nil => simp
  | cons o rest ih =>
    unfold totalWeight at ih ⊢
    by_cases hp : p o
    · simp only [List.filter_cons_of_pos hp, List.map_cons, weightAll]
      omega
    · simp only [List.filter_cons_of_neg hp, List.map_cons, weightAll]
      omega

def named (name : String) (occurrences : List Occurrence) : List Occurrence :=
  occurrences.filter (·.name == name)

/-- The signatures of the symbols of a node, whose declarations are `group`, in order. -/
def signatures (group : List Occurrence) : List Signature := (group.map (·.signature)).eraseDups

/-- The symbol with a signature; its first declaration tells who may use it. -/
def entryOf (group : List Occurrence) (signature : Signature) : Entry :=
  let parts := group.filter (·.signature == signature)
  ⟨signature, (parts.head?.map (·.declaration.accessibility)).getD .publicAccess,
    parts.filterMap (·.location?)⟩

def entries (group : List Occurrence) : List Entry := (signatures group).map (entryOf group)

/-- What the declarations of a node contain, which is the level below it. -/
def level (group : List Occurrence) : List Occurrence :=
  let symbols := signatures group
  group.flatMap fun occurrence => occurrence.inner (symbols.idxOf occurrence.signature)

theorem totalWeight_level (group : List Occurrence) :
    totalWeight (level group) + group.length ≤ totalWeight group :=
  totalWeight_flatMap_le _ (fun o => totalWeight_inner_lt _ o) group

/-- The nodes of a level, in the order in which their names occur first. -/
def merge (occurrences : List Occurrence) : List SymbolNode :=
  (occurrences.map (·.name)).eraseDups.attach.map fun ⟨name, _⟩ =>
    ⟨name, entries (named name occurrences), merge (level (named name occurrences))⟩
termination_by totalWeight occurrences
decreasing_by
  rename_i h
  obtain ⟨o, ho, hname⟩ := List.mem_map.1 (List.mem_eraseDups.1 h)
  have hmem : o ∈ named name occurrences :=
    List.mem_filter.2 ⟨ho, (beq_iff_eq (a := o.name)).2 hname⟩
  have hgroup := List.length_pos_of_mem hmem
  have hlevel := totalWeight_level (named name occurrences)
  have hfilter : totalWeight (named name occurrences) ≤ totalWeight occurrences :=
    totalWeight_filter_le _ _
  omega

end Occurrence

namespace Project

/-- What the documents declare on the top level, then what the libraries declare. -/
def occurrences (project : Project) : List Occurrence :=
  project.info.documents.flatMap (fun document =>
    (exposedAll .source document.declarations).map (⟨·, .source, none, some document.id⟩))
  ++ project.info.metadataReferences.flatMap (fun reference =>
    (exposedAll .metadata reference.declarations).map (⟨·, .metadata, none, none⟩))

/-- The symbol tree of the project, without its nameless root. -/
def symbolForest (project : Project) : List SymbolNode := Occurrence.merge project.occurrences

end Project

end SymbolSearch
