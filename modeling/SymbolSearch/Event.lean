import SymbolSearch.Index.Query
import SymbolSearch.Symbol.Key
import SymbolSearch.Fingerprint
import SymbolSearch.Json.Value

/-!
# Events

What is worth noting while solutions are loaded and searched. Every event comes from a component of
the search, at a level of importance, with fields that say what happened.
-/

namespace SymbolSearch

inductive Level where
  | trace
  | debug
  | info
  | warn
  | error
  deriving DecidableEq, Repr

namespace Level

def all : List Level := [trace, debug, info, warn, error]

def name : Level → String
  | trace => "trace"
  | debug => "debug"
  | info => "info"
  | warn => "warn"
  | error => "error"

def rank : Level → Nat
  | trace => 0
  | debug => 1
  | info => 2
  | warn => 3
  | error => 4

end Level

inductive DispatchState where
  | notAttempted
  | remoteAttempted
  | remoteSucceeded
  | remoteUnavailable
  | remoteFailed
  | localFallback
  | completed
  deriving DecidableEq, Repr

def DispatchState.name : DispatchState → String
  | notAttempted => "NotAttempted"
  | remoteAttempted => "RemoteAttempted"
  | remoteSucceeded => "RemoteSucceeded"
  | remoteUnavailable => "RemoteUnavailable"
  | remoteFailed => "RemoteFailed"
  | localFallback => "LocalFallback"
  | completed => "Completed"

inductive Event where
  | loadedSolution (path : String) (projects : Nat)
  | logFileNotOpened (path : String)
  | treeBuilt (project : ProjectId) (fingerprint : Fingerprint) (nodes symbols : Nat)
  | treeEvicted (project : ProjectId) (fingerprint : Fingerprint)
  | treeLoaded (project : ProjectId) (path : String)
  | treeDiscarded (project : ProjectId) (path error : String)
  | treeNotStored (project : ProjectId) (error : String)
  | treeSearched (project : ProjectId) (kind : SearchKind) (found : Nat)
  | snapshotRegistered (checksum : Fingerprint)
  | dispatched (state : DispatchState)
  | answeredRemotely (found : Nat)
  | hostUnavailable
  | hostFailed (error : String)
  | descriptorDropped (project : ProjectId) (key : SymbolKey) (reason : String)

namespace Event

def level : Event → Level
  | dispatched _ | treeSearched _ _ _ => .trace
  | treeDiscarded _ _ _ | treeNotStored _ _ | hostFailed _ | logFileNotOpened _ => .warn
  | _ => .debug

/-- The component that an event comes from, as it is named in filters. -/
def component : Event → String
  | loadedSolution _ _ => "nova_project::load"
  | logFileNotOpened _ => "nova_config"
  | treeBuilt _ _ _ _ | treeEvicted _ _ | treeLoaded _ _ | treeDiscarded _ _ _
  | treeNotStored _ _ => "nova_index::cache"
  | treeSearched _ _ _ => "nova_router::engine"
  | snapshotRegistered _ => "nova_router::worker"
  | dispatched _ | answeredRemotely _ | hostUnavailable | hostFailed _ => "nova_router::dispatch"
  | descriptorDropped _ _ _ => "nova_router::materialize"

def area : Event → String
  | loadedSolution _ _ => "nova.project"
  | logFileNotOpened _ => "nova.config"
  | treeBuilt _ _ _ _ | treeEvicted _ _ | treeLoaded _ _ | treeDiscarded _ _ _
  | treeNotStored _ _ => "nova.index"
  | _ => "nova.router"

def message : Event → String
  | loadedSolution _ _ => "loaded solution"
  | logFileNotOpened _ => "failed to open log file; file logging disabled"
  | treeBuilt _ _ _ _ => "built symbol tree"
  | treeEvicted _ _ => "evicted symbol tree"
  | treeLoaded _ _ => "loaded persisted symbol tree"
  | treeDiscarded _ _ _ => "discarding unreadable persisted symbol tree"
  | treeNotStored _ _ => "failed to persist symbol tree"
  | treeSearched _ _ _ => "searched symbol tree"
  | snapshotRegistered _ => "registered solution snapshot"
  | dispatched _ => "dispatch transition"
  | answeredRemotely _ => "declaration search answered remotely"
  | hostUnavailable => "remote host unavailable; searching locally"
  | hostFailed _ => "remote declaration search failed; searching locally"
  | descriptorDropped _ _ _ => "dropping unresolvable symbol descriptor"

def details : Event → List (String × Json)
  | loadedSolution path projects => [("path", .string path), ("projects", .nat projects)]
  | logFileNotOpened path => [("path", .string path)]
  | treeBuilt project fingerprint nodes symbols =>
    [("project", .string project.display), ("fingerprint", .string fingerprint.hex),
      ("nodes", .nat nodes), ("symbols", .nat symbols)]
  | treeEvicted project fingerprint =>
    [("project", .string project.display), ("fingerprint", .string fingerprint.hex)]
  | treeLoaded project path => [("project", .string project.display), ("path", .string path)]
  | treeDiscarded project path error =>
    [("project", .string project.display), ("path", .string path), ("error", .string error)]
  | treeNotStored project error =>
    [("project", .string project.display), ("error", .string error)]
  | treeSearched project kind found =>
    [("project", .string project.display), ("kind", .string kind.name), ("matches", .nat found)]
  | snapshotRegistered checksum => [("checksum", .string checksum.hex)]
  | dispatched state => [("state", .string state.name)]
  | answeredRemotely found => [("matches", .nat found)]
  | hostUnavailable => []
  | hostFailed error => [("error", .string error)]
  | descriptorDropped project key reason =>
    [("project", .string project.display), ("key", .string key.display),
      ("reason", .string reason)]

def fields (event : Event) : Json :=
  .object (("message", .string event.message) :: ("target", .string event.area) :: event.details)

end Event

end SymbolSearch
