import SymbolSearch.Symbol.Key

/-!
# Declarations

A declaration as a compiler front end reports it: a name, a signature, the place where it stands, and
the declarations inside it.
-/

namespace SymbolSearch

structure TextRange where
  start : UInt32
  stop : UInt32
  ordered : start ≤ stop
  deriving DecidableEq, Repr

namespace TextRange

instance : Inhabited TextRange := ⟨⟨0, 0, by decide⟩⟩

def ofBounds? (start stop : UInt32) : Option TextRange :=
  if h : start ≤ stop then some ⟨start, stop, h⟩ else none

/-- A range that would end before its start is empty. -/
def clamped (start stop : UInt32) : TextRange :=
  if h : start ≤ stop then ⟨start, stop, h⟩ else ⟨start, start, UInt32.le_refl start⟩

end TextRange

structure Location where
  document : DocumentId
  range : TextRange
  deriving DecidableEq, Repr

structure Declaration where
  name : String
  kind : SymbolKind
  accessibility : Accessibility
  arity : UInt32
  parameters : List String
  range : TextRange
  children : List Declaration
  deriving Repr

namespace Declaration

def ofName (kind : SymbolKind) (name : String) : Declaration :=
  ⟨name, kind, .publicAccess, 0, [], default, []⟩

def withChildren (declaration : Declaration) (children : List Declaration) : Declaration :=
  { declaration with children := declaration.children ++ children }

def withRange (declaration : Declaration) (start stop : UInt32) : Declaration :=
  { declaration with range := .clamped start stop }

mutual

/-- The declaration and all inside it, each before those that it contains. -/
def walk : Declaration → List Declaration
  | ⟨name, kind, accessibility, arity, parameters, range, children⟩ =>
    ⟨name, kind, accessibility, arity, parameters, range, children⟩ :: walkAll children

def walkAll : List Declaration → List Declaration
  | [] => []
  | declaration :: rest => walk declaration ++ walkAll rest

end

end Declaration

structure Document where
  id : DocumentId
  name : String
  declarations : List Declaration
  deriving Repr

/-- A referenced library. -/
structure MetadataReference where
  name : String
  declarations : List Declaration
  deriving Repr

end SymbolSearch
