/-!
# Kinds of declarations

What a declaration declares, who may use it, and whether it was read from source or from the
metadata of a referenced library. Each of the three has a one-byte tag and a written name.
-/

namespace SymbolSearch

inductive SymbolKind where
  | namespaceDecl
  | classDecl
  | structDecl
  | interfaceDecl
  | enumDecl
  | delegateDecl
  | methodDecl
  | constructorDecl
  | propertyDecl
  | fieldDecl
  | eventDecl
  deriving DecidableEq, Repr, Inhabited

inductive SymbolCategory where
  | namespaces
  | types
  | members
  deriving DecidableEq, Repr

namespace SymbolKind

/-- Every kind, in the order of the tags. -/
def all : List SymbolKind :=
  [namespaceDecl, classDecl, structDecl, interfaceDecl, enumDecl, delegateDecl, methodDecl,
    constructorDecl, propertyDecl, fieldDecl, eventDecl]

def category : SymbolKind → SymbolCategory
  | namespaceDecl => .namespaces
  | classDecl | structDecl | interfaceDecl | enumDecl | delegateDecl => .types
  | methodDecl | constructorDecl | propertyDecl | fieldDecl | eventDecl => .members

/-- Only methods and constructors are written with a parameter list. -/
def hasParameterList : SymbolKind → Bool
  | methodDecl | constructorDecl => true
  | _ => false

def isContainer (kind : SymbolKind) : Bool := kind.category != .members

def tag : SymbolKind → Nat
  | namespaceDecl => 0
  | classDecl => 1
  | structDecl => 2
  | interfaceDecl => 3
  | enumDecl => 4
  | delegateDecl => 5
  | methodDecl => 6
  | constructorDecl => 7
  | propertyDecl => 8
  | fieldDecl => 9
  | eventDecl => 10

def ofTag? (tag : Nat) : Option SymbolKind := all[tag]?

theorem ofTag?_tag (kind : SymbolKind) : ofTag? kind.tag = some kind := by
  cases kind <;> rfl

theorem tag_of_ofTag? {tag : Nat} {kind : SymbolKind} (h : ofTag? tag = some kind) :
    kind.tag = tag := by
  have hlt : tag < 11 := (List.getElem?_eq_some_iff.1 h).1
  match tag, hlt with
  | 0, _ | 1, _ | 2, _ | 3, _ | 4, _ | 5, _ | 6, _ | 7, _ | 8, _ | 9, _ | 10, _ =>
    cases h; rfl

def name : SymbolKind → String
  | namespaceDecl => "namespace"
  | classDecl => "class"
  | structDecl => "struct"
  | interfaceDecl => "interface"
  | enumDecl => "enum"
  | delegateDecl => "delegate"
  | methodDecl => "method"
  | constructorDecl => "constructor"
  | propertyDecl => "property"
  | fieldDecl => "field"
  | eventDecl => "event"

def ofName? (name : String) : Option SymbolKind := all.find? (·.name == name)

instance : Ord SymbolKind := ⟨fun a b => compare a.tag b.tag⟩

end SymbolKind

inductive Accessibility where
  | publicAccess
  | protectedAccess
  | internalAccess
  | privateAccess
  deriving DecidableEq, Repr, Inhabited

namespace Accessibility

def all : List Accessibility := [publicAccess, protectedAccess, internalAccess, privateAccess]

/-- Code outside the library can use the declaration, perhaps by inheriting from it. -/
def isExternallyVisible : Accessibility → Bool
  | publicAccess | protectedAccess => true
  | internalAccess | privateAccess => false

def tag : Accessibility → Nat
  | publicAccess => 0
  | protectedAccess => 1
  | internalAccess => 2
  | privateAccess => 3

def ofTag? (tag : Nat) : Option Accessibility := all[tag]?

theorem ofTag?_tag (access : Accessibility) : ofTag? access.tag = some access := by
  cases access <;> rfl

theorem tag_of_ofTag? {tag : Nat} {access : Accessibility} (h : ofTag? tag = some access) :
    access.tag = tag := by
  have hlt : tag < 4 := (List.getElem?_eq_some_iff.1 h).1
  match tag, hlt with
  | 0, _ | 1, _ | 2, _ | 3, _ => cases h; rfl

def name : Accessibility → String
  | publicAccess => "public"
  | protectedAccess => "protected"
  | internalAccess => "internal"
  | privateAccess => "private"

def ofName? (name : String) : Option Accessibility := all.find? (·.name == name)

end Accessibility

inductive SymbolOrigin where
  | source
  | metadata
  deriving DecidableEq, Repr, Inhabited

namespace SymbolOrigin

def all : List SymbolOrigin := [source, metadata]

def tag : SymbolOrigin → Nat
  | source => 0
  | metadata => 1

def ofTag? (tag : Nat) : Option SymbolOrigin := all[tag]?

theorem ofTag?_tag (origin : SymbolOrigin) : ofTag? origin.tag = some origin := by
  cases origin <;> rfl

theorem tag_of_ofTag? {tag : Nat} {origin : SymbolOrigin} (h : ofTag? tag = some origin) :
    origin.tag = tag := by
  have hlt : tag < 2 := (List.getElem?_eq_some_iff.1 h).1
  match tag, hlt with
  | 0, _ | 1, _ => cases h; rfl

def name : SymbolOrigin → String
  | source => "source"
  | metadata => "metadata"

def ofName? (name : String) : Option SymbolOrigin := all.find? (·.name == name)

instance : Ord SymbolOrigin := ⟨fun a b => compare a.tag b.tag⟩

end SymbolOrigin

/-- Whether a search also lists what referenced libraries declare. -/
inductive SearchScope where
  | sourceOnly
  | sourceAndMetadata
  deriving DecidableEq, Repr, Inhabited

namespace SearchScope

def all : List SearchScope := [sourceOnly, sourceAndMetadata]

def name : SearchScope → String
  | sourceOnly => "source_only"
  | sourceAndMetadata => "source_and_metadata"

def ofName? (name : String) : Option SearchScope := all.find? (·.name == name)

def tag : SearchScope → Nat
  | sourceOnly => 0
  | sourceAndMetadata => 1

def ofTag? (tag : Nat) : Option SearchScope := all[tag]?

theorem ofTag?_tag (scope : SearchScope) : ofTag? scope.tag = some scope := by
  cases scope <;> rfl

theorem tag_of_ofTag? {tag : Nat} {scope : SearchScope} (h : ofTag? tag = some scope) :
    scope.tag = tag := by
  have hlt : tag < 2 := (List.getElem?_eq_some_iff.1 h).1
  match tag, hlt with
  | 0, _ | 1, _ => cases h; rfl

def includes : SearchScope → SymbolOrigin → Bool
  | sourceAndMetadata, _ => true
  | sourceOnly, origin => origin == .source

end SearchScope

end SymbolSearch
