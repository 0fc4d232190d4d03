import SymbolSearch.Index.Table

/-!
# Keys of an index

The key of a symbol is read off upward through its containers, and a key is resolved downward from
the root. A path may be that of several symbols, such as a namespace that both the source and a
library declare, so every candidate is followed.
-/

namespace SymbolSearch

namespace SymbolIndex

def segment (index : SymbolIndex) (info : SymbolInfo) : KeySegment :=
  ⟨info.kind, index.nodeName info.node, info.arity, info.parameters⟩

/-- The segments of a symbol and its containers, the outermost first, followed by `inner`. A
container has a smaller handle than what it contains. -/
def segmentsUp (index : SymbolIndex) : Nat → Nat → List KeySegment → List KeySegment
  | 0, _, inner => inner
  | fuel + 1, handle, inner =>
    match index.info? handle with
    | none => inner
    | some info =>
      let segments := index.segment info :: inner
      match info.parent with
      | some parent => segmentsUp index fuel parent segments
      | none => segments

def key? (index : SymbolIndex) (handle : Nat) : Option SymbolKey :=
  (index.info? handle).map fun info => ⟨index.segmentsUp (handle + 1) handle [], info.origin⟩

/-- A node and, unless it is the root, one of its symbols. -/
structure Candidate where
  node : Nat
  symbol : Option Nat

def childNamed? (index : SymbolIndex) (node : Nat) (name : String) : Option Nat := do
  (← index.node? node).children.find? fun child => index.nodeName child == name

def isSegmentOf (index : SymbolIndex) (origin : SymbolOrigin) (segment : KeySegment)
    (container : Option Nat) (handle : Nat) : Bool :=
  match index.info? handle with
  | some info =>
    info.parent == container && info.origin == origin && info.kind == segment.kind
      && info.arity == segment.arity && info.parameters == segment.parameters
  | none => false

/-- The symbols inside a candidate that one more segment may name. -/
def step (index : SymbolIndex) (origin : SymbolOrigin) (segment : KeySegment)
    (candidate : Candidate) : List Candidate :=
  match index.childNamed? candidate.node segment.name with
  | none => []
  | some child =>
    let symbols := ((index.node? child).map (·.symbols)).getD []
    (symbols.filter (index.isSegmentOf origin segment candidate.symbol)).map fun handle =>
      ⟨child, some handle⟩

def candidates (index : SymbolIndex) (key : SymbolKey) : List Candidate :=
  key.segments.foldl (fun found segment => found.flatMap (index.step key.origin segment))
    [⟨0, none⟩]

/-- The symbol that a key names. -/
def resolveKey (index : SymbolIndex) (key : SymbolKey) : Option Nat :=
  (index.candidates key).head?.bind (·.symbol)

end SymbolIndex

/-- A symbol of a project, seen through an index of the project's content. -/
structure LiveSymbol where
  project : ProjectId
  index : SymbolIndex
  handle : Nat

namespace LiveSymbol

def info? (symbol : LiveSymbol) : Option SymbolInfo := symbol.index.info? symbol.handle

def key (symbol : LiveSymbol) : SymbolKey :=
  (symbol.index.key? symbol.handle).getD ⟨[], .source⟩

def display (symbol : LiveSymbol) : String := symbol.key.display

def container? (symbol : LiveSymbol) : Option LiveSymbol := do
  let parent ← (← symbol.info?).parent
  return { symbol with handle := parent }

/-- The symbols around a symbol, the nearest first. -/
def containers : Nat → LiveSymbol → List LiveSymbol
  | 0, _ => []
  | fuel + 1, symbol =>
    match symbol.container? with
    | some container => container :: containers fuel container
    | none => []

/-- Indexes of the same content number their symbols alike, so the fingerprint stands for them. -/
instance : BEq LiveSymbol where
  beq a b := a.project == b.project && a.handle == b.handle
    && a.index.fingerprint == b.index.fingerprint

def describe (symbol : LiveSymbol) : String :=
  let kind := (symbol.info?.map (·.kind.name)).getD ""
  s!"Symbol({symbol.project.display}, {kind} {symbol.display})"

end LiveSymbol

def SymbolIndex.symbol? (index : SymbolIndex) (project : ProjectId) (handle : Nat) :
    Option LiveSymbol :=
  (index.info? handle).map fun _ => ⟨project, index, handle⟩

end SymbolSearch
