import SymbolSearch.Index.Find
import SymbolSearch.Index.Resolve
import SymbolSearch.Search.Session

/-!
# Searching locally

A project is searched by its index, a solution project by project in the order of its ids. A search
that is cancelled on the way gives nothing of what it has found.
-/

namespace SymbolSearch

namespace Engine

variable {σ : Type}

open SearchM

def searchLoaded (editFallback : Bool) (project : Project) (query : Query)
    (options : SearchOptions) : SearchM σ (List LiveSymbol) := do
  if isTriviallyEmpty query options then return []
  let index ← indexOf project
  let findOptions : FindOptions := ⟨options.filter, options.scope, editFallback⟩
  let handles := index.find query findOptions
  if index.findCancels query findOptions then cancel
  note (.treeSearched project.id query.kind handles.length)
  return handles.filterMap (index.symbol? project.id)

def searchOne (editFallback : Bool) (graph : ProjectGraph) (query : Query)
    (options : SearchOptions) (id : ProjectId) : SearchM σ (List LiveSymbol) := do
  checkToken
  match ← askProject graph id with
  | none => throw (.unknownProject id)
  | some project => searchLoaded editFallback project query options

def searchEach (editFallback : Bool) (graph : ProjectGraph) (query : Query)
    (options : SearchOptions) : List ProjectId → SearchM σ (List LiveSymbol)
  | [] => return []
  | id :: ids => do
    let found ← searchOne editFallback graph query options id
    return found ++ (← searchEach editFallback graph query options ids)

def searchAll (editFallback : Bool) (graph : ProjectGraph) (query : Query)
    (options : SearchOptions) : SearchM σ (List LiveSymbol) := do
  checkToken
  if isTriviallyEmpty query options then return []
  let found ← searchEach editFallback graph query options graph.ids
  checkToken
  return found

/-- The symbols of a project or of the whole solution that a query finds. -/
def search (editFallback : Bool) (graph : ProjectGraph) (target : SearchTarget) (query : Query)
    (options : SearchOptions) : SearchM σ (List LiveSymbol) :=
  match target with
  | .project id => searchOne editFallback graph query options id
  | .solution => searchAll editFallback graph query options

end Engine

end SymbolSearch
