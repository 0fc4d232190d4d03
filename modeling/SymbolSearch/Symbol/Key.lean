import SymbolSearch.Symbol.Kind

/-!
# Symbol keys

A key names a declaration by the path of its containers, the signature of every segment, and its
origin. It means the same declaration in every copy of the same snapshot.
-/

namespace SymbolSearch

structure ProjectId where
  number : UInt32
  deriving DecidableEq, Repr, Inhabited

structure DocumentId where
  number : UInt32
  deriving DecidableEq, Repr, Inhabited

def ProjectId.display (id : ProjectId) : String := s!"project#{id.number.toNat}"

def DocumentId.display (id : DocumentId) : String := s!"document#{id.number.toNat}"

structure KeySegment where
  kind : SymbolKind
  name : String
  arity : UInt32
  parameters : List String
  deriving DecidableEq, Repr, Inhabited

/-- The name, the number of type parameters unless it is zero, and the parameter list of a kind
that has one. -/
def KeySegment.display (segment : KeySegment) : String :=
  let arity := if segment.arity = 0 then "" else "`" ++ toString segment.arity.toNat
  let parameters :=
    if segment.kind.hasParameterList then "(" ++ ", ".intercalate segment.parameters ++ ")" else ""
  segment.name ++ arity ++ parameters

/-- By kind, then name, then arity, then parameters. -/
def KeySegment.order (a b : KeySegment) : Ordering :=
  (((compare a.kind b.kind).then (compare a.name b.name)).then (compare a.arity b.arity)).then
    (compare a.parameters b.parameters)

instance : Ord KeySegment := ⟨KeySegment.order⟩

structure SymbolKey where
  segments : List KeySegment
  origin : SymbolOrigin
  deriving DecidableEq, Repr, Inhabited

namespace SymbolKey

def display (key : SymbolKey) : String := ".".intercalate (key.segments.map (·.display))

def name (key : SymbolKey) : String := (key.segments.getLast?.map (·.name)).getD ""

def child (key : SymbolKey) (segment : KeySegment) : SymbolKey :=
  { key with segments := key.segments ++ [segment] }

/-- By segments, then by origin. -/
def order (a b : SymbolKey) : Ordering :=
  (compare a.segments b.segments).then (compare a.origin b.origin)

instance : Ord SymbolKey := ⟨order⟩

end SymbolKey

end SymbolSearch
