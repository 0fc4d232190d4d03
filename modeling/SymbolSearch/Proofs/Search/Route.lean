import SymbolSearch.Proofs.Search.Described
import SymbolSearch.Search.Dispatch

/-!
# Routes of queries

A query is searched for locally, unless there is a host that it can be sent to. What comes of it on
a live session depends on nothing but the descriptors that the host lists, if it lists any. Whatever
else it answers, the search is made up for locally.
-/

namespace SymbolSearch

variable {hashed : Set Bytes} {σ : Type}

namespace Dispatcher

open SearchM

/-- What becomes of a query for a target that is part of the graph. -/
def route (dispatcher : Dispatcher σ) (graph : ProjectGraph) (target : SearchTarget) (query : Query)
    (options : SearchOptions) : SearchM σ Outcome :=
  if isTriviallyEmpty query options then
    record [.completed] >>= fun _ => pure ⟨[], [.notAttempted, .completed]⟩
  else
    match query.descriptor?, dispatcher.activeHost with
    | none, _ => dispatcher.runLocally graph target query options [.notAttempted]
    | some _, none => record [.remoteUnavailable] >>= fun _ =>
      dispatcher.runLocally graph target query options [.notAttempted, .remoteUnavailable]
    | some name, some host => dispatcher.runRemotely host graph target name options

theorem dispatch_eq (dispatcher : Dispatcher σ) (graph : ProjectGraph) (target : SearchTarget)
    (query : Query) (options : SearchOptions) :
    dispatcher.dispatch graph target query options
      = checkToken >>= fun _ => checkTarget graph target >>= fun _ =>
          dispatcher.route graph target query options := rfl

/-- The same dispatcher with another host, or with none. -/
def withHost (dispatcher : Dispatcher σ) (host : Option (Host σ)) : Dispatcher σ :=
  { dispatcher with host }

theorem activeHost_withHost (dispatcher : Dispatcher σ) (host : Option (Host σ)) :
    (dispatcher.withHost host).activeHost = none
      ∨ (dispatcher.withHost host).activeHost = host := by
  rw [activeHost]
  split
  · exact .inr rfl
  · exact .inl rfl

/-- What a query is answered in the given state. -/
def answer (dispatcher : Dispatcher σ) (graph : ProjectGraph) (target : SearchTarget)
    (query : Query) (options : SearchOptions) (session : Session σ) : Except SearchError Outcome :=
  ((dispatcher.dispatch graph target query options).run session).1

/-! ### Local routes -/

theorem yields_record (states : List DispatchState) :
    Yields hashed (record states : SearchM σ Unit) () := by
  induction states with
  | nil => exact yields_pure ()
  | cons state states ih =>
    exact (yields_note _).bind ih

theorem yields_runLocally (free : CollisionFree hashed) {query : Query}
    (cancels : query.NeverCancels) {solution : Solution} (hsolution : solution.IsHashed hashed)
    {target : SearchTarget} (htarget : ∀ id ∈ target.project?, id ∈ solution.ids)
    (dispatcher : Dispatcher σ) (options : SearchOptions) (before : List DispatchState) :
    Yields hashed (dispatcher.runLocally solution.graph target query options before)
      ⟨distinct (Engine.found dispatcher.editFallback solution.indexes target query options),
        before ++ [.localFallback, .completed]⟩ := by
  have hsearch := Engine.yields_search (σ := σ) free cancels dispatcher.editFallback options
    hsolution htarget
  exact (yields_record _).bind (hsearch.bind ((yields_record _).bind (yields_pure _)))

theorem run_checkTarget {solution : Solution} {target : SearchTarget}
    (htarget : ∀ id ∈ target.project?, id ∈ solution.ids) {session : Session σ}
    (hasks : session.asksLeft = none) :
    (checkTarget solution.graph target).run session = (.ok (), session) := by
  cases target with
  | solution => rfl
  | project id =>
    obtain ⟨project, hproject⟩ := Solution.exists_get?_of_mem_ids (htarget id rfl)
    have hask := run_askProject hasks solution.graph id
    rw [show solution.graph.project? id = some project from hproject] at hask
    exact run_bind hask

/-- A target outside the solution is refused before anything else happens. -/
theorem answer_of_unknown (dispatcher : Dispatcher σ) {solution : Solution}
    {id : ProjectId} (hid : id ∉ solution.ids) (query : Query) (options : SearchOptions)
    {session : Session σ} (live : session.IsLive hashed) :
    dispatcher.answer solution.graph (.project id) query options session
      = .error (.unknownProject id) := by
  obtain ⟨after, hask, -, -⟩ := yields_askProject solution.graph id session live
  have hproject : solution.graph.project? id = none := Solution.get?_eq_none hid
  rw [hproject] at hask
  have htarget : (checkTarget solution.graph (.project id)).run session
      = (.error (.unknownProject id), after) := run_bind hask
  rw [answer, dispatch_eq, run_bind (run_checkToken live.token), run_bind_error htarget]

/-- For a target inside the solution the query is sent on its way. -/
theorem answer_of_known {solution : Solution} {target : SearchTarget}
    (htarget : ∀ id ∈ target.project?, id ∈ solution.ids) {session : Session σ}
    (live : session.IsLive hashed) (dispatcher : Dispatcher σ) (query : Query)
    (options : SearchOptions) : dispatcher.answer solution.graph target query options session
      = ((dispatcher.route solution.graph target query options).run session).1 := by
  rw [answer, dispatch_eq, run_bind (run_checkToken live.token),
    run_bind (run_checkTarget htarget live.asksLeft)]

/-- A query is searched for locally if it asks for nothing, cannot be sent, or there is nobody to
whom it could be sent. -/
def StaysLocal (dispatcher : Dispatcher σ) (query : Query) (options : SearchOptions) : Prop :=
  isTriviallyEmpty query options = true ∨ query.descriptor? = none ∨ dispatcher.activeHost = none

section

variable {query : Query} {solution : Solution} {target : SearchTarget} {options : SearchOptions}
  {dispatcher : Dispatcher σ} (free : CollisionFree hashed) (cancels : query.NeverCancels)
  (hsolution : solution.IsHashed hashed) (htarget : ∀ id ∈ target.project?, id ∈ solution.ids)
  (stays : dispatcher.StaysLocal query options)

include free cancels hsolution htarget stays

theorem exists_yields_route : ∃ outcome,
    Yields hashed (dispatcher.route solution.graph target query options) outcome
      ∧ outcome.symbols
        = distinct (Engine.found dispatcher.editFallback solution.indexes target query options)
      ∧ (isTriviallyEmpty query options = false → outcome.ranLocally = true) := by
  rw [route]
  by_cases hempty : isTriviallyEmpty query options = true
  · rw [if_pos hempty, Engine.found_of_trivial hempty]
    exact ⟨_, (yields_record _).seq (yields_pure _), rfl, fun h => by rw [hempty] at h; cases h⟩
  · rw [if_neg hempty]
    have hlocal (before : List DispatchState) :=
      yields_runLocally free cancels hsolution htarget dispatcher options before
    rcases stays.resolve_left hempty with hquery | hhost
    · rw [hquery]
      exact ⟨_, hlocal _, rfl, fun _ => by simp [Outcome.ranLocally]⟩
    · rw [hhost]
      cases query.descriptor? with
      | none => exact ⟨_, hlocal _, rfl, fun _ => by simp [Outcome.ranLocally]⟩
      | some name =>
        exact ⟨_, (yields_record _).seq (hlocal _), rfl, fun _ => by simp [Outcome.ranLocally]⟩

/-- A search that stays local gives what is found. -/
theorem exists_answer_locally {session : Session σ} (live : session.IsLive hashed) : ∃ outcome,
    dispatcher.answer solution.graph target query options session = .ok outcome
      ∧ outcome.symbols
        = distinct (Engine.found dispatcher.editFallback solution.indexes target query options)
      ∧ (isTriviallyEmpty query options = false → outcome.ranLocally = true) := by
  obtain ⟨outcome, hroute, hsymbols⟩ :=
    exists_yields_route free cancels hsolution htarget stays
  obtain ⟨after, hafter, -, -⟩ := hroute session live
  refine ⟨outcome, ?_, hsymbols⟩
  rw [answer_of_known htarget live, hafter]

end

end Dispatcher

/-! ### What a host tells -/

/-- The descriptors that an answer lists, if it is a reply that can be read as such a list. -/
def HostAnswer.descriptors? : HostAnswer → Option (List Descriptor)
  | .reply frame =>
    match Wire.decode frame with
    | .ok (.declarations descriptors) => some descriptors
    | _ => none
  | _ => none

/-- The symbols that a host has found, if it was of any use. -/
def RemoteResult.symbols? : RemoteResult → Option (List LiveSymbol)
  | .succeeded symbols => some symbols
  | _ => none

/-- The state of a search in which the host is called. -/
def Session.attempted (session : Session σ) : Session σ :=
  { session with events := session.events ++ [.dispatched .remoteAttempted] }

theorem Session.IsLive.attempted {session : Session σ} (live : session.IsLive hashed) :
    session.attempted.IsLive hashed :=
  ⟨live.token, live.asksLeft, live.cache⟩

/-- What a host lists when it is sent a request. -/
def Host.heard? (host : Host σ) (request : Message) (session : Session σ) :
    Option (List Descriptor) :=
  match Wire.encode request with
  | .ok frame => ((host frame).run session).1.descriptors?
  | .error _ => none

/-- If a host is sent the request, it answers in the end and the search can go on. -/
def Host.Serves (hashed : Set Bytes) (host : Host σ) (request : Message) (session : Session σ) :
    Prop :=
  ∀ frame, Wire.encode request = .ok frame → ((host frame).run session).1 ≠ .silent
    ∧ ((host frame).run session).2.IsLive hashed

/-- What the descriptors of a target stand for in a solution. -/
def Solution.resolved (solution : Solution) (target : SearchTarget)
    (descriptors : List Descriptor) : List LiveSymbol :=
  (distinct (Dispatcher.inTarget target descriptors)).filterMap (·.resolved solution.indexes)

namespace Dispatcher

open SearchM

/-- A host that leaves the search uncancelled is called and answered for. -/
theorem run_call {host : Host σ} {frame : Bytes} {session : Session σ}
    (htoken : session.token.cancelled = false)
    (htoken' : ((host frame).run session).2.token.cancelled = false) :
    (call host frame).run session
      = (.ok ((host frame).run session).1, ((host frame).run session).2) := by
  have hlift : ExceptT.run (monadLift (host frame) : SearchM σ HostAnswer) session
      = (.ok ((host frame).run session).1, ((host frame).run session).2) := rfl
  rw [call, run_bind (run_checkToken htoken)]
  exact (run_bind hlift).trans (run_bind (run_checkToken htoken'))

/-- What is read of a reply is what it lists. -/
theorem descriptors?_reply (reply : Bytes) :
    (HostAnswer.reply reply).descriptors? = (readReply reply).toOption := by
  rw [HostAnswer.descriptors?, readReply]
  rcases Wire.decode reply with error | (_ | _ | _) <;> rfl

section

variable (free : CollisionFree hashed) {solution : Solution} (hsolution : solution.IsHashed hashed)
  {target : SearchTarget} (query : NameQuery) (options : SearchOptions) {host : Host σ}
  {session : Session σ} (live : session.IsLive hashed)

include free hsolution live

/-- What a host is taken to have found is what its descriptors stand for. -/
theorem run_tryRemote
    (serves : host.Serves hashed (request solution.graph target query options) session) :
    ∃ result after, (tryRemote host solution.graph target query options).run session
        = (.ok result, after) ∧ after.IsLive hashed
      ∧ result.symbols? = (host.heard? (request solution.graph target query options) session).map
        (solution.resolved target) := by
  rw [tryRemote, Host.heard?]
  cases hframe : Wire.encode (request solution.graph target query options) with
  | error error => exact ⟨_, session, rfl, live, rfl⟩
  | ok frame =>
    obtain ⟨hsilent, live'⟩ := serves frame hframe
    have hcall := run_call live.token live'.token
    simp only
    revert hsilent hcall
    cases ((host frame).run session).1 with
    | silent => exact fun hsilent => absurd rfl hsilent
    | unavailable => exact fun _ hcall => ⟨_, _, run_bind hcall, live', rfl⟩
    | failed cause => exact fun _ hcall => ⟨_, _, run_bind hcall, live', rfl⟩
    | reply reply =>
      intro _ hcall
      rw [descriptors?_reply]
      cases hreply : readReply reply with
      | error cause =>
        refine ⟨.failed cause, _, (run_bind hcall).trans ?_, live', rfl⟩
        simp only [hreply]
        rfl
      | ok descriptors =>
        obtain ⟨after, hresolve, hafter, -⟩ := Descriptor.yields_resolveAll free hsolution
          (inTarget target descriptors) _ live'
        refine ⟨.succeeded _, after, (run_bind hcall).trans ?_, hafter, rfl⟩
        simp only [hreply]
        exact run_bind hresolve

/-- A query that is sent gives what the host tells; if it tells nothing, what is found locally. -/
theorem run_runRemotely (htarget : ∀ id ∈ target.project?, id ∈ solution.ids)
    (dispatcher : Dispatcher σ)
    (serves : host.Serves hashed (request solution.graph target query options) session.attempted) :
    let heard? := host.heard? (request solution.graph target query options) session.attempted
    ∃ outcome after, (dispatcher.runRemotely host solution.graph target query options).run session
        = (.ok outcome, after)
      ∧ outcome.symbols = (heard?.map (solution.resolved target)).getD
        (distinct (Engine.found dispatcher.editFallback solution.indexes target (.named query)
          options))
      ∧ (heard? = none → outcome.ranLocally = true) := by
  intro heard?
  obtain ⟨result, middle, hrun, hmiddle, hresult⟩ :=
    run_tryRemote free hsolution query options live.attempted serves
  have hfirst : (record [.remoteAttempted]).run session = (.ok (), session.attempted) := rfl
  -- Whatever went wrong with the host, the local search makes up for it.
  have fallback (note' : SearchM σ Unit) (states before : List DispatchState)
      (hnote : Yields hashed note' ()) :
      ∃ outcome after, (note' >>= fun _ => record states >>= fun _ =>
          dispatcher.runLocally solution.graph target (.named query) options before).run middle
          = (.ok outcome, after)
        ∧ outcome.symbols = distinct (Engine.found dispatcher.editFallback solution.indexes target
            (.named query) options)
        ∧ outcome.ranLocally = true := by
    have hlocal := yields_runLocally free query.neverCancels hsolution htarget
      dispatcher options before
    obtain ⟨after, hafter, -, -⟩ :=
      (hnote.seq ((yields_record states).seq hlocal)) middle hmiddle
    exact ⟨_, after, hafter, rfl, by simp [Outcome.ranLocally]⟩
  rw [runRemotely, run_bind hfirst, run_bind hrun, ← hresult]
  cases result with
  | unavailable =>
    obtain ⟨outcome, after, hafter, hsymbols, hlocal⟩ := fallback _ _ _ (yields_note _)
    exact ⟨outcome, after, hafter, hsymbols, fun _ => hlocal⟩
  | failed cause =>
    obtain ⟨outcome, after, hafter, hsymbols, hlocal⟩ := fallback _ _ _ (yields_note _)
    exact ⟨outcome, after, hafter, hsymbols, fun _ => hlocal⟩
  | succeeded symbols =>
    obtain ⟨after, hafter, -, -⟩ := ((yields_record [.remoteSucceeded, .completed]).seq
      ((yields_note (.answeredRemotely symbols.length)).seq (yields_pure (Outcome.mk symbols
        [.notAttempted, .remoteAttempted, .remoteSucceeded, .completed])))) middle hmiddle
    refine ⟨_, after, hafter, rfl, fun hnone => ?_⟩
    change host.heard? _ _ = none at hnone
    rw [hnone] at hresult
    cases hresult

/-- A search that is sent away gives what the host tells; if it tells nothing, what is found. -/
theorem exists_answer_remotely (htarget : ∀ id ∈ target.project?, id ∈ solution.ids)
    {dispatcher : Dispatcher σ} (hhost : dispatcher.activeHost = some host)
    (hempty : isTriviallyEmpty (.named query) options = false)
    (serves : host.Serves hashed (request solution.graph target query options) session.attempted) :
    let heard? := host.heard? (request solution.graph target query options) session.attempted
    ∃ outcome, dispatcher.answer solution.graph target (.named query) options session = .ok outcome
      ∧ outcome.symbols = (heard?.map (solution.resolved target)).getD
        (distinct (Engine.found dispatcher.editFallback solution.indexes target (.named query)
          options))
      ∧ (heard? = none → outcome.ranLocally = true) := by
  intro heard?
  obtain ⟨outcome, after, hrun, houtcome⟩ :=
    run_runRemotely free hsolution query options live htarget dispatcher serves
  have hroute : dispatcher.route solution.graph target (.named query) options
      = dispatcher.runRemotely host solution.graph target query options := by
    rw [route, hempty, hhost]
    rfl
  refine ⟨outcome, ?_, houtcome⟩
  rw [answer_of_known htarget live, hroute, hrun]

end

end Dispatcher

end SymbolSearch
