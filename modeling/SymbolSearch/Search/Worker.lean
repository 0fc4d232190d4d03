import SymbolSearch.Search.Descriptor
import SymbolSearch.Search.Engine
import SymbolSearch.Wire.Codec

/-!
# Workers

A worker answers requests about the snapshots that are registered with it. Every frame gets an
answer: what is not a request for a known snapshot gets an error reply.
-/

namespace SymbolSearch

structure Worker where
  editFallback : Bool
  snapshots : List (Fingerprint × ProjectGraph)
  available : Bool
  served : Nat

/-- Why a worker has no reply. -/
inductive WorkerFault where
  | cancelled
  | notEncodable (error : WireError)
  deriving DecidableEq, Repr

def WorkerFault.message : WorkerFault → String
  | cancelled => cancellationMessage
  | notEncodable error => error.message

namespace Worker

def new (editFallback : Bool) : Worker := ⟨editFallback, [], true, 0⟩

def register (worker : Worker) (graph : ProjectGraph) : Worker :=
  { worker with
    snapshots := (graph.checksum, graph) :: worker.snapshots.filter (·.1 != graph.checksum) }

def unregister (worker : Worker) (checksum : Fingerprint) : Bool × Worker :=
  ((worker.snapshots.lookup checksum).isSome,
    { worker with snapshots := worker.snapshots.filter (·.1 != checksum) })

/-- The reply to a request, or nothing if the search is cancelled. -/
def findDeclarations (worker : Worker) (request : FindRequest) :
    StateM (Session Unit) (Option Message) := do
  match worker.snapshots.lookup request.checksum with
  | none => return some (.error s!"unknown solution snapshot {request.checksum.hex}")
  | some graph =>
    let found ← (Engine.search worker.editFallback graph (.ofProject? request.project)
      (.named request.query) ⟨request.filter, request.scope⟩).run
    match found with
    | .ok symbols => return some (.declarations (distinct (symbols.map (·.descriptor))))
    | .error .cancelled => return none
    | .error error => return some (.error error.message)

def reply (worker : Worker) (frame : Bytes) : StateM (Session Unit) (Option Message) := do
  match Wire.decode frame with
  | .ok (.find request) => worker.findDeclarations request
  | .ok _ => return some (.error "expected a FindDeclarations request")
  | .error error => return some (.error s!"malformed request: {error.message}")

/-- The frame of the reply. A reply is counted before it is put into a frame. -/
def handleFrame (worker : Worker) (frame : Bytes) :
    StateM (Session Unit) (Except WorkerFault Bytes × Worker) := do
  match ← worker.reply frame with
  | none => return (.error .cancelled, worker)
  | some message =>
    return ((Wire.encode message).mapError .notEncodable, { worker with served := worker.served + 1 })

end Worker

/-- What a remote host does with a request. A host that is silent never answers. -/
inductive HostAnswer where
  | unavailable
  | failed (cause : String)
  | reply (frame : Bytes)
  | silent
  deriving DecidableEq, Repr

/-- A host has a state of its own, and sees the session of the search that calls it. -/
abbrev Host (σ : Type) := Bytes → StateM (Session σ) HostAnswer

/-- A host whose state is the first part of a larger one. -/
def Host.first {σ τ : Type} (host : Host σ) : Host (σ × τ) := fun frame session =>
  let (answer, inner) := host frame { session with host := session.host.1 }
  (answer, { inner with host := (inner.host, session.host.2) })

/-- A host whose state is the second part of a larger one. -/
def Host.second {σ τ : Type} (host : Host τ) : Host (σ × τ) := fun frame session =>
  let (answer, inner) := host frame { session with host := session.host.2 }
  (answer, { inner with host := (session.host.1, inner.host) })

namespace Worker

def answer (worker : Worker) (frame : Bytes) : StateM (Session Unit) (HostAnswer × Worker) := do
  if worker.available then
    match ← worker.handleFrame frame with
    | (.ok reply, worker) => return (.reply reply, worker)
    | (.error fault, worker) => return (.failed fault.message, worker)
  else return (.unavailable, worker)

/-- Runs what works on a session without a host, with the given cache, and gives the cache back. The
caller is not asked for any project meanwhile. -/
def withCache {σ α : Type} (cache : IndexCache) (action : StateM (Session Unit) α) :
    StateM (Session σ) (α × IndexCache) := fun session =>
  let (result, inner) := action { session with cache, asksLeft := none, host := () }
  ((result, inner.cache),
    { session with files := inner.files, token := inner.token, events := inner.events })

/-- A worker that works with the cache of the search that calls it. -/
def sharingHost : Host Worker := fun frame => do
  let session ← get
  let ((answer, worker), cache) ← withCache session.cache (session.host.answer frame)
  modify fun session => { session with cache, host := worker }
  return answer

/-- A worker that has a cache of its own. -/
def separateHost : Host (Worker × IndexCache) := fun frame => do
  let (worker, cache) := (← get).host
  let ((answer, worker), cache) ← withCache cache (worker.answer frame)
  modify fun session => { session with host := (worker, cache) }
  return answer

end Worker

/-- A host whose answer is laid down beforehand, and which may cancel the caller before it answers. -/
structure ScriptedHost where
  answer : HostAnswer
  cancels : Bool
  calls : Nat
  lastRequest : Option Bytes

def ScriptedHost.host : Host ScriptedHost := fun frame => do
  let session ← get
  let script := session.host
  set { session with
    host := { script with calls := script.calls + 1, lastRequest := some frame },
    token := (⟨session.token.cancelled || script.cancels⟩ : Token) }
  return script.answer

end SymbolSearch
