import SymbolSearch.Symbol.Filter
import SymbolSearch.Text.Quoted

/-!
# Queries

A query asks for symbols by their name: for a given name, for a name whatever its case, for names
that fit a pattern, or for names that satisfy a predicate. All but the last can be written down and
sent to another process.
-/

namespace SymbolSearch

inductive NameQuery where
  | exact (name : String)
  | ignoreCase (name : String)
  | fuzzy (pattern : String)
  deriving DecidableEq, Repr

def NameQuery.text : NameQuery → String
  | exact name | ignoreCase name | fuzzy name => name

/-- A predicate of the caller, which may cancel the search when it sees certain names. -/
structure NamePredicate where
  holds : String → Bool
  cancels : String → Bool

inductive Query where
  | named (query : NameQuery)
  | predicate (predicate : NamePredicate)

inductive SearchKind where
  | exact
  | exactIgnoreCase
  | fuzzy
  | predicate
  deriving DecidableEq, Repr

def SearchKind.name : SearchKind → String
  | exact => "Exact"
  | exactIgnoreCase => "ExactIgnoreCase"
  | fuzzy => "Fuzzy"
  | predicate => "Predicate"

namespace Query

def kind : Query → SearchKind
  | named (.exact _) => .exact
  | named (.ignoreCase _) => .exactIgnoreCase
  | named (.fuzzy _) => .fuzzy
  | predicate _ => .predicate

def text? : Query → Option String
  | named query => some query.text
  | predicate _ => none

/-- A blank name or pattern finds nothing; a predicate is never blank. -/
def isBlank (query : Query) : Bool := (query.text?.map Text.isBlank).getD false

/-- The form of a query that can be sent to another process. -/
def descriptor? : Query → Option NameQuery
  | named query => some query
  | predicate _ => none

def isRemoteEligible (query : Query) : Bool := query.descriptor?.isSome

def byName (name : String) (ignoreCase : Bool) : Query :=
  named (if ignoreCase then .ignoreCase name else .exact name)

def describe (query : Query) : String :=
  match query.text? with
  | some text => query.kind.name ++ "(" ++ Text.quoted text ++ ")"
  | none => query.kind.name ++ "(..)"

end Query

/-- Which symbols are looked at, and whether edits are forgiven when nothing else fits. -/
structure FindOptions where
  filter : SymbolFilter := .all
  scope : SearchScope := .sourceOnly
  editFallback : Bool := true

end SymbolSearch
