import SymbolSearch.Search.Worker

/-!
# Where a query runs

A query that can be sent goes to the remote host first, if there is one. Short of a usable answer it
is searched for locally, once. A cancelled search is not a failure of the host.
-/

namespace SymbolSearch

structure Outcome where
  symbols : List LiveSymbol
  trace : List DispatchState

namespace Outcome

def traceText (outcome : Outcome) : String := " -> ".intercalate (outcome.trace.map (·.name))

def remoteSucceeded (outcome : Outcome) : Bool := outcome.trace.contains .remoteSucceeded

def ranLocally (outcome : Outcome) : Bool := outcome.trace.contains .localFallback

end Outcome

inductive RemoteResult where
  | succeeded (symbols : List LiveSymbol)
  | unavailable
  | failed (cause : String)

structure Dispatcher (σ : Type) where
  editFallback : Bool
  remoteEnabled : Bool
  host : Option (Host σ)

namespace Dispatcher

variable {σ : Type}

open SearchM

def activeHost (dispatcher : Dispatcher σ) : Option (Host σ) :=
  if dispatcher.remoteEnabled then dispatcher.host else none

def request (graph : ProjectGraph) (target : SearchTarget) (query : NameQuery)
    (options : SearchOptions) : Message :=
  .find ⟨graph.checksum, target.project?, query, options.filter, options.scope⟩

/-- The descriptors of a reply, or what is wrong with it. -/
def readReply (reply : Bytes) : Except String (List Descriptor) :=
  match Wire.decode reply with
  | .ok (.declarations symbols) => .ok symbols
  | .ok (.error text) => .error s!"remote host error: {text}"
  | .ok (.find _) => .error "remote host answered with a request"
  | .error error => .error s!"decode declaration reply: {error.message}"

/-- A search of one project does not believe what the host says about others. -/
def inTarget (target : SearchTarget) (descriptors : List Descriptor) : List Descriptor :=
  match target with
  | .project id => descriptors.filter (·.project == id)
  | .solution => descriptors

/-- Calls the host unless the caller has cancelled, in which case nobody waits for the answer. -/
def call (host : Host σ) (frame : Bytes) : SearchM σ HostAnswer := do
  checkToken
  let answer ← (host frame : StateM (Session σ) HostAnswer)
  checkToken
  return answer

def tryRemote (host : Host σ) (graph : ProjectGraph) (target : SearchTarget) (query : NameQuery)
    (options : SearchOptions) : SearchM σ RemoteResult := do
  match Wire.encode (request graph target query options) with
  | .error error => return .failed s!"encode declaration request: {error.message}"
  | .ok frame =>
    match ← call host frame with
    | .silent => throw .cancelled
    | .unavailable => return .unavailable
    | .failed cause => return .failed cause
    | .reply reply =>
      match readReply reply with
      | .error cause => return .failed cause
      | .ok descriptors =>
        return .succeeded (← Descriptor.resolveAll graph (inTarget target descriptors))

def record (states : List DispatchState) : SearchM σ Unit :=
  states.forM fun state => note (.dispatched state)

/-- Searches locally, after the given states. -/
def runLocally (dispatcher : Dispatcher σ) (graph : ProjectGraph) (target : SearchTarget)
    (query : Query) (options : SearchOptions) (before : List DispatchState) :
    SearchM σ Outcome := do
  record [.localFallback]
  let symbols ← Engine.search dispatcher.editFallback graph target query options
  record [.completed]
  return ⟨distinct symbols, before ++ [.localFallback, .completed]⟩

/-- Asks the host, and searches locally if it has no answer. -/
def runRemotely (dispatcher : Dispatcher σ) (host : Host σ) (graph : ProjectGraph)
    (target : SearchTarget) (query : NameQuery) (options : SearchOptions) :
    SearchM σ Outcome := do
  record [.remoteAttempted]
  match ← tryRemote host graph target query options with
  | .succeeded symbols =>
    record [.remoteSucceeded, .completed]
    note (.answeredRemotely symbols.length)
    return ⟨symbols, [.notAttempted, .remoteAttempted, .remoteSucceeded, .completed]⟩
  | .unavailable =>
    note .hostUnavailable
    record [.remoteUnavailable]
    dispatcher.runLocally graph target (.named query) options
      [.notAttempted, .remoteAttempted, .remoteUnavailable]
  | .failed cause =>
    note (.hostFailed cause)
    record [.remoteFailed]
    dispatcher.runLocally graph target (.named query) options
      [.notAttempted, .remoteAttempted, .remoteFailed]

/-- The target must be part of the graph. -/
def checkTarget (graph : ProjectGraph) (target : SearchTarget) : SearchM σ Unit := do
  match target with
  | .solution => return
  | .project id =>
    if (← askProject graph id).isNone then throw (.unknownProject id)

def dispatch (dispatcher : Dispatcher σ) (graph : ProjectGraph) (target : SearchTarget)
    (query : Query) (options : SearchOptions) : SearchM σ Outcome := do
  checkToken
  checkTarget graph target
  if isTriviallyEmpty query options then
    record [.completed]
    return ⟨[], [.notAttempted, .completed]⟩
  match query.descriptor?, dispatcher.activeHost with
  | none, _ => dispatcher.runLocally graph target query options [.notAttempted]
  | some _, none =>
    record [.remoteUnavailable]
    dispatcher.runLocally graph target query options [.notAttempted, .remoteUnavailable]
  | some name, some host => dispatcher.runRemotely host graph target name options

/-- The symbols of one project that a name or pattern finds. -/
def findInProject (dispatcher : Dispatcher σ) (graph : ProjectGraph) (project : ProjectId)
    (query : Query) (options : SearchOptions) : SearchM σ (List LiveSymbol) := do
  match query with
  | .predicate _ => throw (.unsupportedQueryKind .predicate)
  | query => return (← dispatcher.dispatch graph (.project project) query options).symbols

end Dispatcher

end SymbolSearch
