import SymbolSearch.Index.Cache
import SymbolSearch.Wire.Message
import SymbolSearch.Project.Solution

/-!
# Search sessions

The projects that are searched, the state that a search works on, and the ways in which it can fail.
A search that fails still leaves the state as far as it got.
-/

namespace SymbolSearch

inductive SearchError where
  | unknownProject (project : ProjectId)
  | unsupportedQueryKind (kind : SearchKind)
  | cancelled
  | index (error : IndexError)
  deriving DecidableEq, Repr

def SearchError.message : SearchError → String
  | unknownProject project => s!"{project.display} is not part of the solution"
  | unsupportedQueryKind kind => s!"{kind.name} queries are not supported by this operation"
  | cancelled => "search cancelled"
  | index error => s!"failed to build symbol index: {error.message}"

def SearchError.ofIndex : IndexError → SearchError
  | .cancelled => cancelled
  | error => index error

/-- The projects of a snapshot as a search sees them. -/
structure ProjectGraph where
  ids : List ProjectId
  project? : ProjectId → Option Project
  checksum : Fingerprint

def Solution.graph (solution : Solution) : ProjectGraph :=
  ⟨solution.ids, solution.get?, solution.checksum⟩

inductive SearchTarget where
  | project (id : ProjectId)
  | solution
  deriving DecidableEq, Repr

def SearchTarget.project? : SearchTarget → Option ProjectId
  | project id => some id
  | solution => none

def SearchTarget.ofProject? : Option ProjectId → SearchTarget
  | some id => project id
  | none => solution

structure SearchOptions where
  filter : SymbolFilter
  scope : SearchScope
  deriving DecidableEq, Repr

/-- A blank query or an empty filter finds nothing anywhere. -/
def isTriviallyEmpty (query : Query) (options : SearchOptions) : Bool :=
  query.isBlank || options.filter.isEmpty

/-- The caller may cancel while it is asked for a project: `asksLeft` counts the questions down to
the one at which it does. The type of the remote host's state is `σ`. -/
structure Session (σ : Type) where
  cache : IndexCache
  files : FileTree
  token : Token
  asksLeft : Option Nat
  events : List Event
  host : σ

abbrev SearchM (σ : Type) := ExceptT SearchError (StateM (Session σ))

namespace SearchM

variable {σ : Type}

def note (event : Event) : SearchM σ Unit :=
  modify fun session => { session with events := session.events ++ [event] }

def checkToken : SearchM σ Unit := do
  if (← get).token.cancelled then throw .cancelled

def cancel : SearchM σ Unit := modify fun session => { session with token := ⟨true⟩ }

/-- Asks the caller for a project. -/
def askProject (graph : ProjectGraph) (id : ProjectId) : SearchM σ (Option Project) := do
  let session ← get
  match session.asksLeft with
  | some 1 => set { session with asksLeft := none, token := (⟨true⟩ : Token) }
  | some left => set { session with asksLeft := some (left - 1) }
  | none => pure ()
  return graph.project? id

/-- The index of a project from the cache of the session. -/
def indexOf (project : Project) : SearchM σ SymbolIndex := do
  let session ← get
  match session.cache.getOrBuild session.files project session.token with
  | .ok request =>
    set { session with
      cache := request.cache, files := request.files,
      events := session.events ++ request.events }
    return request.held.index
  | .error error => throw (.ofIndex error)

end SearchM

end SymbolSearch
