import SymbolSearch.Proofs.Search.Described
import SymbolSearch.Proofs.Wire.RoundTrip
import SymbolSearch.Search.Dispatch

/-!
# What a worker answers

A worker that knows the snapshot of a request answers with the descriptors of what is found locally,
as far as they fit into a frame. Everything else that it answers is plainly not a list of
descriptors.
-/

namespace SymbolSearch

variable {hashed : Set Bytes}

namespace Worker

/-- The states of a worker with which snapshots of hashed solutions were registered. -/
inductive Reachable (hashed : Set Bytes) : Worker → Prop
  | new (editFallback : Bool) : Reachable hashed (new editFallback)
  | register {worker : Worker} {solution : Solution} :
    Reachable hashed worker → solution.IsHashed hashed →
    Reachable hashed (worker.register solution.graph)
  | unregister {worker : Worker} (checksum : Fingerprint) :
    Reachable hashed worker → Reachable hashed (worker.unregister checksum).2
  | setAvailable {worker : Worker} (available : Bool) :
    Reachable hashed worker → Reachable hashed { worker with available }
  | handleFrame {worker : Worker} (frame : Bytes) (session : Session Unit) :
    Reachable hashed worker → Reachable hashed ((worker.handleFrame frame).run session).1.2

/-- Whatever the worker finds for a checksum is a hashed solution of this checksum. -/
def Knows (hashed : Set Bytes) (worker : Worker) : Prop :=
  ∀ snapshot ∈ worker.snapshots, ∃ solution : Solution, solution.IsHashed hashed
    ∧ snapshot = (solution.checksum, solution.graph)

theorem snapshots_handleFrame (worker : Worker) (frame : Bytes) (session : Session Unit) :
    ((worker.handleFrame frame).run session).1.2.snapshots = worker.snapshots := by
  rw [handleFrame, StateT.run_bind]
  cases ((worker.reply frame).run session) with
  | mk message after => cases message <;> rfl

theorem Reachable.knows {worker : Worker} (reachable : worker.Reachable hashed) :
    worker.Knows hashed := by
  induction reachable with
  | new editFallback => exact fun snapshot h => by cases h
  | @register worker solution _ hsolution ih =>
    intro snapshot hsnapshot
    rcases List.mem_cons.1 hsnapshot with rfl | hsnapshot
    · exact ⟨solution, hsolution, rfl⟩
    · exact ih snapshot (List.mem_filter.1 hsnapshot).1
  | unregister checksum _ ih =>
    exact fun snapshot hsnapshot => ih snapshot (List.mem_filter.1 hsnapshot).1
  | setAvailable available _ ih => exact ih
  | handleFrame frame session _ ih =>
    intro snapshot hsnapshot
    rw [snapshots_handleFrame] at hsnapshot
    exact ih snapshot hsnapshot

theorem Knows.exists_solution {worker : Worker} (knows : worker.Knows hashed)
    {checksum : Fingerprint} {graph : ProjectGraph}
    (h : worker.snapshots.lookup checksum = some graph) :
    ∃ solution : Solution, solution.IsHashed hashed ∧ checksum = solution.checksum
      ∧ graph = solution.graph := by
  obtain ⟨before, rest, hslots, -⟩ := List.lookup_eq_some_iff.1 h
  obtain ⟨solution, hsolution, hpair⟩ :=
    knows _ (hslots ▸ List.mem_append_right _ List.mem_cons_self)
  obtain ⟨hchecksum, hgraph⟩ := Prod.mk.inj hpair
  exact ⟨solution, hsolution, hchecksum, hgraph⟩

/-! ### Runs of a worker -/

theorem run_handleFrame {worker : Worker} {frame : Bytes} {session after : Session Unit}
    {message : Message} (h : (worker.reply frame).run session = (some message, after)) :
    (worker.handleFrame frame).run session
      = (((Wire.encode message).mapError .notEncodable,
        { worker with served := worker.served + 1 }), after) := by
  rw [handleFrame, StateT.run_bind, h]
  rfl

theorem run_handleFrame_of_cancelled {worker : Worker} {frame : Bytes}
    {session after : Session Unit} (h : (worker.reply frame).run session = (none, after)) :
    (worker.handleFrame frame).run session = ((.error .cancelled, worker), after) := by
  rw [handleFrame, StateT.run_bind, h]
  rfl

theorem ofProject?_project? (target : SearchTarget) :
    SearchTarget.ofProject? target.project? = target := by
  cases target <;> rfl

theorem project?_ofProject? (project? : Option ProjectId) :
    (SearchTarget.ofProject? project?).project? = project? := by
  cases project? <;> rfl

theorem run_findDeclarations_unknown {worker : Worker} {request : FindRequest}
    (h : worker.snapshots.lookup request.checksum = none) (session : Session Unit) :
    (worker.findDeclarations request).run session
      = (some (.error s!"unknown solution snapshot {request.checksum.hex}"), session) := by
  rw [findDeclarations, h]
  rfl

/-- What a worker replies after a search with this outcome. -/
def told : Except SearchError (List LiveSymbol) → Option Message
  | .ok symbols => some (.declarations (distinct (symbols.map (·.descriptor))))
  | .error .cancelled => none
  | .error error => some (.error error.message)

theorem run_findDeclarations_registered {worker : Worker} {request : FindRequest}
    {graph : ProjectGraph} (hsnapshot : worker.snapshots.lookup request.checksum = some graph)
    {session after : Session Unit} {outcome : Except SearchError (List LiveSymbol)}
    (hsearch : (Engine.search worker.editFallback graph (.ofProject? request.project)
      (.named request.query) ⟨request.filter, request.scope⟩).run session = (outcome, after)) :
    (worker.findDeclarations request).run session = (told outcome, after) := by
  rw [findDeclarations, hsnapshot]
  change (ExceptT.run (Engine.search worker.editFallback graph (.ofProject? request.project)
    (.named request.query) ⟨request.filter, request.scope⟩) >>= _ : StateM _ _).run session = _
  rw [StateT.run_bind, show StateT.run (ExceptT.run (Engine.search worker.editFallback graph
    (.ofProject? request.project) (.named request.query) ⟨request.filter, request.scope⟩)) session
      = _ from hsearch]
  cases outcome with
  | ok symbols => rfl
  | error error => cases error <;> rfl

/-- For a target that a known snapshot has, a search finds what there is to be found. -/
theorem run_search_known (free : CollisionFree hashed) (editFallback : Bool) {solution : Solution}
    (hsolution : solution.IsHashed hashed) {request : FindRequest}
    (hproject : ∀ id ∈ request.project, id ∈ solution.ids) {session : Session Unit}
    (live : session.IsLive hashed) :
    ∃ after, (Engine.search editFallback solution.graph (.ofProject? request.project)
        (.named request.query) ⟨request.filter, request.scope⟩).run session
      = (.ok (Engine.found editFallback solution.indexes (.ofProject? request.project)
          (.named request.query) ⟨request.filter, request.scope⟩), after)
      ∧ after.IsLive hashed := by
  have htarget : ∀ id ∈ (SearchTarget.ofProject? request.project).project?, id ∈ solution.ids := by
    rw [project?_ofProject?]
    exact hproject
  obtain ⟨after, hrun, live', -⟩ := Engine.yields_search free request.query.neverCancels
    editFallback ⟨request.filter, request.scope⟩ hsolution htarget session live
  exact ⟨after, hrun, live'⟩

/-- A request for a target of a solution. -/
def requestFor (solution : Solution) (target : SearchTarget) (query : NameQuery)
    (options : SearchOptions) : FindRequest :=
  ⟨solution.checksum, target.project?, query, options.filter, options.scope⟩

/-- A worker with a cache of its own changes neither the cache of the caller nor its other state. -/
theorem run_separateHost (frame : Bytes) (session : Session (Worker × IndexCache)) :
    (separateHost frame).run session =
      let result := (session.host.1.answer frame).run
        { session with cache := session.host.2, asksLeft := none, host := () }
      (result.1.1, { session with
        files := result.2.files, token := result.2.token, events := result.2.events,
        host := (result.1.2, result.2.cache) }) := rfl

/-- The message is an error, or it lists the descriptors of the symbols. -/
def IsReply (symbols : List LiveSymbol) (message : Message) : Prop :=
  (∃ text, message = .error text)
    ∨ message = .declarations (distinct (symbols.map (·.descriptor)))

variable (free : CollisionFree hashed) {worker : Worker} (knows : worker.Knows hashed)
  {solution : Solution} (hsolution : solution.IsHashed hashed) {target : SearchTarget}
  (htarget : ∀ id ∈ target.project?, id ∈ solution.ids) (query : NameQuery)
  (options : SearchOptions)

include free knows hsolution htarget

theorem run_findDeclarations {session : Session Unit} (live : session.IsLive hashed) :
    ∃ message after,
      (worker.findDeclarations (requestFor solution target query options)).run session
        = (some message, after)
      ∧ after.IsLive hashed
      ∧ IsReply (Engine.found worker.editFallback solution.indexes target (.named query) options)
        message := by
  cases hsnapshot : worker.snapshots.lookup (requestFor solution target query options).checksum with
  | none => exact ⟨_, session, run_findDeclarations_unknown hsnapshot session, live, .inl ⟨_, rfl⟩⟩
  | some graph =>
    obtain ⟨known, hknown, hchecksum, rfl⟩ := knows.exists_solution hsnapshot
    have hindexes := Solution.indexes_eq_of_checksum_eq free hsolution hknown hchecksum
    have hproject : ∀ id ∈ (requestFor solution target query options).project, id ∈ known.ids := by
      intro id hid
      rw [← known.map_fst_indexes, ← hindexes, solution.map_fst_indexes]
      exact htarget id hid
    obtain ⟨after, hsearch, live'⟩ :=
      run_search_known free worker.editFallback hknown hproject live
    refine ⟨_, after, run_findDeclarations_registered hsnapshot hsearch, live', .inr ?_⟩
    rw [hindexes, requestFor, ofProject?_project?]

/-- A host has no answer, or a reply to a request in whose target these symbols are found. -/
def IsFair (symbols : List LiveSymbol) (answer : HostAnswer) : Prop :=
  answer = .unavailable ∨ (∃ cause, answer = .failed cause)
    ∨ ∃ message frame, answer = .reply frame ∧ Wire.encode message = .ok frame
      ∧ IsReply symbols message

theorem run_answer {frame : Bytes}
    (hframe : Wire.encode (.find (requestFor solution target query options)) = .ok frame)
    {session : Session Unit} (live : session.IsLive hashed) :
    ∃ answer worker' after, (worker.answer frame).run session = ((answer, worker'), after)
      ∧ after.IsLive hashed
      ∧ IsFair (Engine.found worker.editFallback solution.indexes target (.named query) options)
        answer := by
  rw [answer]
  by_cases havailable : worker.available = true
  · obtain ⟨message, after, hrun, live', hmessage⟩ :=
      run_findDeclarations free knows hsolution htarget query options live
    have hreply : (worker.reply frame).run session = (some message, after) := by
      rw [reply, Wire.decode_of_encode hframe]
      exact hrun
    rw [if_pos havailable, StateT.run_bind, run_handleFrame hreply]
    cases hencoded : Wire.encode message with
    | error error => exact ⟨_, _, after, rfl, live', .inr (.inl ⟨_, rfl⟩)⟩
    | ok reply =>
      exact ⟨_, _, after, rfl, live', .inr (.inr ⟨message, reply, rfl, hencoded, hmessage⟩)⟩
  · rw [if_neg havailable]
    exact ⟨_, _, session, rfl, live, .inl rfl⟩

end Worker

end SymbolSearch
