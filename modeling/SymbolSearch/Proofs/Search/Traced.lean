import SymbolSearch.Proofs.Search.Hosted
import SymbolSearch.Proofs.Search.Tally

/-!
# Traces of searches

The trace of a search says which way the query went. Everything that comes before the local search
is one attempt, which either settles the query or leaves it to the local search; so a host is called
at most once, and the local search runs once if the trace says so and otherwise not at all.
-/

namespace SymbolSearch

variable {σ : Type}

/-! ### Attempts -/

/-- What came of a query before any local search: an outcome, or the states it went through. -/
inductive Attempt where
  | settled (outcome : Outcome)
  | left (states : List DispatchState)

namespace Attempt

/-- The trace of the search in the end. -/
def trace : Attempt → List DispatchState
  | settled outcome => outcome.trace
  | left states => states ++ [.localFallback, .completed]

/-- How often there is a local search afterwards. -/
def searches : Attempt → Nat
  | settled _ => 0
  | left _ => 1

end Attempt

namespace Dispatcher

open SearchM

def attemptRemotely (host : Host σ) (graph : ProjectGraph) (target : SearchTarget)
    (query : NameQuery) (options : SearchOptions) : SearchM σ Attempt := do
  record [.remoteAttempted]
  match ← tryRemote host graph target query options with
  | .succeeded symbols =>
    record [.remoteSucceeded, .completed]
    note (.answeredRemotely symbols.length)
    return .settled ⟨symbols, [.notAttempted, .remoteAttempted, .remoteSucceeded, .completed]⟩
  | .unavailable =>
    note .hostUnavailable
    record [.remoteUnavailable]
    return .left [.notAttempted, .remoteAttempted, .remoteUnavailable]
  | .failed cause =>
    note (.hostFailed cause)
    record [.remoteFailed]
    return .left [.notAttempted, .remoteAttempted, .remoteFailed]

/-- An attempt for a target that is part of the graph. -/
def attemptKnown (dispatcher : Dispatcher σ) (graph : ProjectGraph) (target : SearchTarget)
    (query : Query) (options : SearchOptions) : SearchM σ Attempt :=
  if isTriviallyEmpty query options then do
    record [.completed]
    return .settled ⟨[], [.notAttempted, .completed]⟩
  else
    match query.descriptor?, dispatcher.activeHost with
    | none, _ => return .left [.notAttempted]
    | some _, none => do
      record [.remoteUnavailable]
      return .left [.notAttempted, .remoteUnavailable]
    | some name, some host => attemptRemotely host graph target name options

def attempt (dispatcher : Dispatcher σ) (graph : ProjectGraph) (target : SearchTarget)
    (query : Query) (options : SearchOptions) : SearchM σ Attempt := do
  checkToken
  checkTarget graph target
  dispatcher.attemptKnown graph target query options

/-- Makes up for what an attempt has left by a search. -/
def finish (search : SearchM σ (List LiveSymbol)) : Attempt → SearchM σ Outcome
  | .settled outcome => return outcome
  | .left states => do
    record [.localFallback]
    let symbols ← search
    record [.completed]
    return ⟨distinct symbols, states ++ [.localFallback, .completed]⟩

/-- A dispatch with a local search of one's own. -/
def dispatchWith (dispatcher : Dispatcher σ) (search : SearchM σ (List LiveSymbol))
    (graph : ProjectGraph) (target : SearchTarget) (query : Query) (options : SearchOptions) :
    SearchM σ Outcome := do
  finish search (← dispatcher.attempt graph target query options)

section

variable (dispatcher : Dispatcher σ) (graph : ProjectGraph) (target : SearchTarget)
  (options : SearchOptions)

theorem runRemotely_eq (host : Host σ) (query : NameQuery) :
    dispatcher.runRemotely host graph target query options
      = attemptRemotely host graph target query options
        >>= finish (Engine.search dispatcher.editFallback graph target (.named query) options) := by
  rw [runRemotely, attemptRemotely]
  simp only [bind_assoc]
  congr 1
  funext _
  congr 1
  funext result
  cases result with
  | succeeded symbols => simp [finish]
  | unavailable =>
    simp only [bind_assoc, pure_bind]
    rfl
  | failed cause =>
    simp only [bind_assoc, pure_bind]
    rfl

/-- After the attempt there is but one place for a local search. -/
theorem dispatch_eq_dispatchWith (query : Query) :
    dispatcher.dispatch graph target query options
      = dispatcher.dispatchWith
          (Engine.search dispatcher.editFallback graph target query options) graph target query
          options := by
  have hroute : dispatcher.route graph target query options
      = dispatcher.attemptKnown graph target query options
        >>= finish (Engine.search dispatcher.editFallback graph target query options) := by
    rw [route, attemptKnown]
    split
    · simp [finish]
    · cases query with
      | predicate predicate => rfl
      | named name =>
        cases dispatcher.activeHost with
        | none => rfl
        | some host => exact runRemotely_eq dispatcher graph target options host name
  rw [dispatch_eq, hroute, dispatchWith, attempt]
  simp only [bind_assoc]

end

/-- The same dispatcher, whose host is called on sessions with tallies. -/
def tallied (dispatcher : Dispatcher σ) : Dispatcher (Tally σ) :=
  { dispatcher with host := dispatcher.host.map Host.tallied }

/-- The same dispatch, which tallies the calls of the host and the local searches. -/
def dispatchTallied (dispatcher : Dispatcher σ) (graph : ProjectGraph) (target : SearchTarget)
    (query : Query) (options : SearchOptions) : SearchM (Tally σ) Outcome :=
  dispatcher.tallied.dispatchWith
    (tallySearch >>= fun _ =>
      Engine.search dispatcher.editFallback graph target query options)
    graph target query options

theorem activeHost_tallied (dispatcher : Dispatcher σ) :
    dispatcher.tallied.activeHost = dispatcher.activeHost.map Host.tallied := by
  rw [activeHost, activeHost]
  split <;> simp_all [tallied]

end Dispatcher

/-! ### What a host does with a request -/

namespace Host

/-- The host is sent the request, and cannot be reached. -/
def IsAway (host : Host σ) (request : Message) (session : Session σ) : Prop :=
  ∃ frame, Wire.encode request = .ok frame ∧ ((host frame).run session).1 = .unavailable

/-- If the host is sent the request, it answers in the end, and it does not cancel the search. -/
def Spares (host : Host σ) (request : Message) (session : Session σ) : Prop :=
  ∀ frame, Wire.encode request = .ok frame → ((host frame).run session).1 ≠ .silent
    ∧ ((host frame).run session).2.IsUncancelled

/-- The result tells what the host has done with the request. -/
def Explains (host : Host σ) (request : Message) (session : Session σ) : RemoteResult → Prop
  | .succeeded _ => ∃ descriptors, host.Tells request session descriptors
  | .unavailable => host.IsAway request session
  | .failed _ => (¬ ∃ descriptors, host.Tells request session descriptors)
    ∧ ¬ host.IsAway request session

variable (host : Host σ) {request : Message} (session : Session σ)

theorem tells_iff_of_encode {frame : Bytes} (h : Wire.encode request = .ok frame) :
    (∃ descriptors, host.Tells request session descriptors)
      ↔ ((host frame).run session).1.descriptors?.isSome := by
  simp only [← heard?_eq_some_iff, heard?, h, Option.isSome_iff_exists]

theorem isAway_iff_of_encode {frame : Bytes} (h : Wire.encode request = .ok frame) :
    host.IsAway request session ↔ ((host frame).run session).1 = .unavailable := by
  simp [IsAway, h]

end Host

/-- How often a host is called for a request: once, if the request can be encoded. -/
def Message.calls (request : Message) : Nat :=
  match Wire.encode request with
  | .ok _ => 1
  | .error _ => 0

theorem Message.calls_le (request : Message) : request.calls ≤ 1 := by
  rw [calls]
  cases Wire.encode request with
  | ok frame => exact Nat.le_refl 1
  | error error => exact Nat.zero_le 1

theorem Message.calls_eq_one_iff (request : Message) :
    request.calls = 1 ↔ ∃ frame, Wire.encode request = .ok frame := by
  rw [calls]
  cases Wire.encode request with
  | ok frame => simp
  | error error => simp

/-- The trace of a search in which this came of calling the host. -/
def RemoteResult.trace : RemoteResult → List DispatchState
  | succeeded _ => [.notAttempted, .remoteAttempted, .remoteSucceeded, .completed]
  | unavailable =>
    [.notAttempted, .remoteAttempted, .remoteUnavailable, .localFallback, .completed]
  | failed _ => [.notAttempted, .remoteAttempted, .remoteFailed, .localFallback, .completed]

theorem Host.not_tells_of_isAway {host : Host σ} {request : Message} {session : Session σ}
    (away : host.IsAway request session) :
    ¬ ∃ descriptors, host.Tells request session descriptors := by
  obtain ⟨frame, hframe, hanswer⟩ := away
  rw [host.tells_iff_of_encode session hframe, hanswer]
  simp [HostAnswer.descriptors?]

/-- The trace tells what the host has done as the result does. -/
theorem Host.Explains.trace {host : Host σ} {request : Message} {session : Session σ}
    {result : RemoteResult} (h : host.Explains request session result) :
    [.notAttempted, .remoteAttempted] <+: result.trace
      ∧ (result.trace = [.notAttempted, .remoteAttempted, .remoteSucceeded, .completed]
        ↔ ∃ descriptors, host.Tells request session descriptors)
      ∧ (result.trace = [.notAttempted, .remoteAttempted, .remoteUnavailable, .localFallback,
          .completed] ↔ host.IsAway request session)
      ∧ (result.trace = [.notAttempted, .remoteAttempted, .remoteFailed, .localFallback, .completed]
        ↔ (¬ ∃ descriptors, host.Tells request session descriptors)
          ∧ ¬ host.IsAway request session) := by
  cases result with
  | succeeded symbols =>
    have haway : ¬ host.IsAway request session := fun away => not_tells_of_isAway away h
    simp [RemoteResult.trace, haway, show ∃ _, _ from h]
  | unavailable =>
    have htold := not_tells_of_isAway h
    have haway : host.IsAway request session := h
    simp [RemoteResult.trace, htold, haway]
  | failed cause =>
    have hneither : (¬ ∃ _, _) ∧ ¬ host.IsAway request session := h
    simp [RemoteResult.trace, hneither.1, hneither.2]

namespace Dispatcher

open SearchM

section

variable {host : Host σ} (graph : ProjectGraph) (target : SearchTarget) (query : NameQuery)
  (options : SearchOptions) {session : Session σ} (h : session.IsUncancelled)

include h

theorem runsTo_call {frame : Bytes} (h' : ((host frame).run session).2.IsUncancelled) :
    RunsTo (call host frame) (call host.tallied frame) session ((host frame).run session).1
      ((host frame).run session).2 1 0 where
  plain := run_call h.token h'.token
  tallied := by
    intro callsBefore searchesBefore
    have htoken : (session.tallied callsBefore searchesBefore).token.cancelled = false := h.token
    exact run_call htoken h'.token
  uncancelled := h'

/-- The host is called if the request can be encoded, and then once. -/
theorem exists_tryRemote (spares : host.Spares (request graph target query options) session) :
    ∃ result after,
      RunsTo (tryRemote host graph target query options)
        (tryRemote host.tallied graph target query options) session result after
        (request graph target query options).calls 0
      ∧ host.Explains (request graph target query options) session result := by
  rw [tryRemote, tryRemote, Message.calls]
  cases hframe : Wire.encode (request graph target query options) with
  | error error =>
    refine ⟨.failed _, session, runsTo_pure h _, ?_, ?_⟩
    · simp [Host.Tells, hframe]
    · simp [Host.IsAway, hframe]
  | ok frame =>
    obtain ⟨hsilent, h'⟩ := spares frame hframe
    have hcall := runsTo_call h h'
    have htells := Host.tells_iff_of_encode host session hframe
    have haway := Host.isAway_iff_of_encode host session hframe
    simp only
    cases hanswer : ((host frame).run session).1 with
    | silent => exact absurd hanswer hsilent
    | unavailable =>
      rw [hanswer] at hcall
      exact ⟨.unavailable, _, hcall.followed (runsTo_pure h' _), haway.2 hanswer⟩
    | failed cause =>
      rw [hanswer] at hcall htells haway
      refine ⟨.failed cause, _, hcall.followed (runsTo_pure h' _), ?_, ?_⟩
      · simp [htells, HostAnswer.descriptors?]
      · simp [haway]
    | reply reply =>
      rw [hanswer] at hcall htells haway
      rw [descriptors?_reply] at htells
      cases hreply : readReply reply with
      | error cause =>
        refine ⟨.failed cause, ((host frame).run session).2, hcall.followed ?_, ?_, ?_⟩
        · simp only [hreply]
          exact runsTo_pure h' _
        · simp [htells, hreply, Except.toOption]
        · simp [haway]
      | ok descriptors =>
        obtain ⟨symbols, after, hresolve⟩ :=
          Descriptor.completes_resolveAll graph (inTarget target descriptors) _ h'
        refine ⟨.succeeded symbols, after, hcall.followed ?_, ?_⟩
        · simp only [hreply]
          exact hresolve.followed (runsTo_pure hresolve.uncancelled _)
        · exact htells.2 (by simp [hreply, Except.toOption])

/-- A query that is sent away goes the way that the host lets it go. -/
theorem exists_attemptRemotely
    (spares : host.Spares (request graph target query options) session.attempted) :
    ∃ attempt after result,
      RunsTo (attemptRemotely host graph target query options)
        (attemptRemotely host.tallied graph target query options) session attempt after
        (request graph target query options).calls 0
      ∧ attempt.trace = result.trace
      ∧ attempt.searches = (if result.trace.contains .localFallback then 1 else 0)
      ∧ host.Explains (request graph target query options) session.attempted result := by
  have hattempted : RunsTo (record [.remoteAttempted]) (record [.remoteAttempted]) session ()
      session.attempted 0 0 := ⟨rfl, fun _ _ => rfl, ⟨h.token, h.asksLeft⟩⟩
  obtain ⟨result, middle, hresult, hexplains⟩ :=
    exists_tryRemote graph target query options hattempted.uncancelled spares
  -- What is noted afterwards depends on the result, but nothing else is done.
  have next {first second : SearchM σ Unit} {first' second' : SearchM (Tally σ) Unit}
      (hfirst : Completes first first') (hsecond : Completes second second') (attempt : Attempt) :
      ∃ after, RunsTo (first >>= fun _ => second >>= fun _ => pure attempt)
        (first' >>= fun _ => second' >>= fun _ => pure attempt) middle attempt after 0 0 := by
    obtain ⟨_, between, hbetween⟩ := hfirst middle hresult.uncancelled
    obtain ⟨_, after, hafter⟩ := hsecond between hbetween.uncancelled
    exact ⟨after, hbetween.followed (hafter.followed (runsTo_pure hafter.uncancelled attempt))⟩
  cases result with
  | succeeded symbols =>
    obtain ⟨after, hafter⟩ := next (completes_record [.remoteSucceeded, .completed])
      (completes_note (.answeredRemotely symbols.length))
      (.settled ⟨symbols, [.notAttempted, .remoteAttempted, .remoteSucceeded, .completed]⟩)
    exact ⟨_, after, .succeeded symbols, hattempted.before (hresult.followed hafter), rfl, rfl,
      hexplains⟩
  | unavailable =>
    obtain ⟨after, hafter⟩ := next (completes_note .hostUnavailable)
      (completes_record [.remoteUnavailable])
      (.left [.notAttempted, .remoteAttempted, .remoteUnavailable])
    exact ⟨_, after, .unavailable, hattempted.before (hresult.followed hafter), rfl, rfl,
      hexplains⟩
  | failed cause =>
    obtain ⟨after, hafter⟩ := next (completes_note (.hostFailed cause))
      (completes_record [.remoteFailed])
      (.left [.notAttempted, .remoteAttempted, .remoteFailed])
    exact ⟨_, after, .failed cause, hattempted.before (hresult.followed hafter), rfl, rfl,
      hexplains⟩

end

section

variable {query : Query} (cancels : query.NeverCancels) {solution : Solution}
  {target : SearchTarget} (htarget : ∀ id ∈ target.project?, id ∈ solution.ids)
  (options : SearchOptions) {session : Session σ} (h : session.IsUncancelled)

include htarget h

theorem runsTo_checkTarget : RunsTo (checkTarget solution.graph target)
    (checkTarget solution.graph target) session () session 0 0 where
  plain := run_checkTarget htarget h.asksLeft
  tallied := by
    intro callsBefore searchesBefore
    have hasks : (session.tallied callsBefore searchesBefore).asksLeft = none := h.asksLeft
    exact run_checkTarget htarget hasks
  uncancelled := h

include cancels

/-- What an attempt has left is searched for once. -/
theorem exists_finish (editFallback : Bool) (attempt : Attempt) : ∃ outcome after,
    RunsTo (finish (Engine.search editFallback solution.graph target query options) attempt)
      (finish (tallySearch >>= fun _ =>
        Engine.search editFallback solution.graph target query options) attempt)
      session outcome after 0 attempt.searches
    ∧ outcome.trace = attempt.trace := by
  cases attempt with
  | settled outcome => exact ⟨outcome, session, runsTo_pure h outcome, rfl⟩
  | left states =>
    obtain ⟨_, noted, hnoted⟩ := completes_record [.localFallback] session h
    obtain ⟨symbols, searched, hsearched⟩ := Engine.completes_search cancels editFallback options
      htarget noted hnoted.uncancelled
    have hsearch := hsearched.tallySearch hnoted.uncancelled
    obtain ⟨_, after, hafter⟩ := completes_record [.completed] searched hsearch.uncancelled
    exact ⟨_, after, hnoted.before (hsearch.followed
      (hafter.followed (runsTo_pure hafter.uncancelled _))), rfl⟩

/-- A dispatch goes the way of its attempt. -/
theorem exists_dispatch {dispatcher : Dispatcher σ} {attempt : Attempt} {middle : Session σ}
    {calls : Nat}
    (hattempt : RunsTo (dispatcher.attemptKnown solution.graph target query options)
      (dispatcher.tallied.attemptKnown solution.graph target query options) session attempt middle
      calls 0)
    (hsearches : attempt.searches = if attempt.trace.contains .localFallback then 1 else 0) :
    ∃ outcome after,
      (dispatcher.dispatch solution.graph target query options).run session = (.ok outcome, after)
      ∧ (dispatcher.dispatchTallied solution.graph target query options).run (session.tallied 0 0)
        = (.ok outcome, after.tallied calls (if outcome.ranLocally then 1 else 0))
      ∧ outcome.trace = attempt.trace := by
  obtain ⟨outcome, after, hafter, htrace⟩ := exists_finish cancels htarget options
    hattempt.uncancelled dispatcher.editFallback attempt
  have hchecked : RunsTo (dispatcher.attempt solution.graph target query options)
      (dispatcher.tallied.attempt solution.graph target query options) session attempt middle
      calls 0 :=
    (runsTo_checkToken h).before ((runsTo_checkTarget htarget h).before hattempt)
  have hwhole := hchecked.bind hafter
  rw [Nat.add_zero, Nat.zero_add, hsearches, ← htrace] at hwhole
  refine ⟨outcome, after, ?_, ?_, htrace⟩
  · rw [dispatch_eq_dispatchWith]
    exact hwhole.plain
  · have htallied := hwhole.tallied 0 0
    rw [Nat.zero_add, Nat.zero_add] at htallied
    exact htallied

end

/-- What a trace says of a dispatch is true, as is the number of calls of the host. -/
structure TracedBy (dispatcher : Dispatcher σ) (solution : Solution) (target : SearchTarget)
    (query : Query) (options : SearchOptions) (session : Session σ) (trace : List DispatchState)
    (calls : Nat) : Prop where
  calls_le : calls ≤ 1
  trivial : isTriviallyEmpty query options = true →
    calls = 0 ∧ trace = [.notAttempted, .completed]
  predicate : isTriviallyEmpty query options = false → ∀ predicate, query = .predicate predicate →
    calls = 0 ∧ trace = [.notAttempted, .localFallback, .completed]
  unhosted : isTriviallyEmpty query options = false → ∀ name, query = .named name →
    dispatcher.activeHost = none →
      calls = 0 ∧ trace = [.notAttempted, .remoteUnavailable, .localFallback, .completed]
  hosted : isTriviallyEmpty query options = false → ∀ name, query = .named name →
    ∀ host, dispatcher.activeHost = some host →
      let sent := request solution.graph target name options
      let told := ∃ descriptors, host.Tells sent session.attempted descriptors
      let away := host.IsAway sent session.attempted
      (calls = 1 ↔ ∃ frame, Wire.encode sent = .ok frame)
        ∧ [.notAttempted, .remoteAttempted] <+: trace
        ∧ (trace = [.notAttempted, .remoteAttempted, .remoteSucceeded, .completed] ↔ told)
        ∧ (trace = [.notAttempted, .remoteAttempted, .remoteUnavailable, .localFallback, .completed]
          ↔ away)
        ∧ (trace = [.notAttempted, .remoteAttempted, .remoteFailed, .localFallback, .completed]
          ↔ ¬ told ∧ ¬ away)

section

variable (dispatcher : Dispatcher σ) (solution : Solution) (target : SearchTarget)
  {options : SearchOptions} {session : Session σ} (uncancelled : session.IsUncancelled)

include uncancelled

theorem exists_attempt_of_trivial {query : Query} (hempty : isTriviallyEmpty query options = true) :
    ∃ middle, RunsTo (dispatcher.attemptKnown solution.graph target query options)
      (dispatcher.tallied.attemptKnown solution.graph target query options) session
      (.settled ⟨[], [.notAttempted, .completed]⟩) middle 0 0 := by
  obtain ⟨_, middle, hrecord⟩ := completes_record [.completed] session uncancelled
  simp only [attemptKnown, hempty, if_true]
  exact ⟨middle, hrecord.followed (runsTo_pure hrecord.uncancelled _)⟩

theorem runsTo_attempt_of_predicate {predicate : NamePredicate}
    (hempty : isTriviallyEmpty (.predicate predicate) options = false) :
    RunsTo (dispatcher.attemptKnown solution.graph target (.predicate predicate) options)
      (dispatcher.tallied.attemptKnown solution.graph target (.predicate predicate) options) session
      (.left [.notAttempted]) session 0 0 := by
  simp only [attemptKnown, hempty]
  exact runsTo_pure uncancelled _

theorem exists_attempt_unhosted {name : NameQuery}
    (hempty : isTriviallyEmpty (.named name) options = false)
    (hhost : dispatcher.activeHost = none) :
    ∃ middle, RunsTo (dispatcher.attemptKnown solution.graph target (.named name) options)
      (dispatcher.tallied.attemptKnown solution.graph target (.named name) options) session
      (.left [.notAttempted, .remoteUnavailable]) middle 0 0 := by
  obtain ⟨_, middle, hrecord⟩ := completes_record [.remoteUnavailable] session uncancelled
  have hactive := activeHost_tallied dispatcher
  rw [hhost] at hactive
  simp only [attemptKnown, hempty, hhost, hactive]
  exact ⟨middle, hrecord.followed (runsTo_pure hrecord.uncancelled _)⟩

/-- The attempt knows the way that the query goes. -/
theorem exists_attempt {query : Query}
    (spares : ∀ host ∈ dispatcher.activeHost, ∀ name, query = .named name →
      host.Spares (request solution.graph target name options) session.attempted) :
    ∃ attempt middle calls,
      RunsTo (dispatcher.attemptKnown solution.graph target query options)
        (dispatcher.tallied.attemptKnown solution.graph target query options) session attempt middle
        calls 0
      ∧ attempt.searches = (if attempt.trace.contains .localFallback then 1 else 0)
      ∧ dispatcher.TracedBy solution target query options session attempt.trace calls := by
  by_cases hempty : isTriviallyEmpty query options = true
  · obtain ⟨middle, hattempt⟩ :=
      exists_attempt_of_trivial dispatcher solution target uncancelled hempty
    exact ⟨_, middle, 0, hattempt, rfl, by constructor <;> simp [hempty, Attempt.trace]⟩
  · rw [Bool.not_eq_true] at hempty
    cases query with
    | predicate predicate =>
      have hattempt :=
        runsTo_attempt_of_predicate dispatcher solution target uncancelled hempty
      exact ⟨_, session, 0, hattempt, rfl, by constructor <;> simp [hempty, Attempt.trace]⟩
    | named name =>
      cases hhost : dispatcher.activeHost with
      | none =>
        obtain ⟨middle, hattempt⟩ :=
          exists_attempt_unhosted dispatcher solution target uncancelled hempty hhost
        exact ⟨_, middle, 0, hattempt, rfl, by constructor <;> simp [hempty, hhost, Attempt.trace]⟩
      | some host =>
        obtain ⟨attempt, middle, result, hremote, htrace, hsearches, hexplains⟩ :=
          exists_attemptRemotely solution.graph target name options uncancelled
            (spares host hhost name rfl)
        have hactive := activeHost_tallied dispatcher
        rw [hhost] at hactive
        refine ⟨attempt, middle, (request solution.graph target name options).calls, ?_,
          by rw [hsearches, htrace], ?_⟩
        · simp only [attemptKnown, hempty, hhost, hactive]
          exact hremote
        · constructor
          · exact Message.calls_le _
          · simp [hempty]
          · simp
          · simp [hhost]
          · rintro - other hname other' hother
            obtain rfl := Query.named.inj hname
            rw [hhost] at hother
            obtain rfl := Option.some.inj hother
            rw [htrace]
            exact ⟨Message.calls_eq_one_iff _, Host.Explains.trace hexplains⟩

end

/-- A search that nobody cancels comes to an outcome whose trace is true. It calls the host once at
most, and searches locally once if the trace says so and otherwise not at all. -/
theorem dispatch_traced {solution : Solution} {target : SearchTarget}
    (htarget : ∀ id ∈ target.project?, id ∈ solution.ids) {query : Query}
    (cancels : query.NeverCancels) (options : SearchOptions) (dispatcher : Dispatcher σ)
    {session : Session σ} (uncancelled : session.IsUncancelled)
    (spares : ∀ host ∈ dispatcher.activeHost, ∀ name, query = .named name →
      host.Spares (request solution.graph target name options) session.attempted) :
    ∃ outcome after calls,
      (dispatcher.dispatch solution.graph target query options).run session = (.ok outcome, after)
      ∧ (dispatcher.dispatchTallied solution.graph target query options).run (session.tallied 0 0)
        = (.ok outcome, after.tallied calls (if outcome.ranLocally then 1 else 0))
      ∧ dispatcher.TracedBy solution target query options session outcome.trace calls := by
  obtain ⟨attempt, middle, calls, hattempt, hsearches, htraced⟩ :=
    exists_attempt dispatcher solution target uncancelled spares
  obtain ⟨outcome, after, hrun, htallied, htrace⟩ :=
    exists_dispatch cancels htarget options uncancelled hattempt hsearches
  exact ⟨outcome, after, calls, hrun, htallied, by rw [htrace]; exact htraced⟩

/-- The host is away, so it is called once and the class is found locally. -/
theorem dispatch_traced_of_away :
    let project : Project := { info := ⟨⟨1⟩, "A", "A", "C#",
      [⟨⟨1⟩, "A.cs", [Declaration.ofName .classDecl "Test"]⟩], [], []⟩ }
    let solution : Solution := ⟨[project]⟩
    let query : NameQuery := .exact "Test"
    let options : SearchOptions := ⟨.all, .sourceOnly⟩
    let session : Session Unit := ⟨.empty 1 none, ⟨[], []⟩, ⟨false⟩, none, [], ()⟩
    let host : Host Unit := fun _ => return .unavailable
    let dispatcher : Dispatcher Unit := ⟨true, true, some host⟩
    (session.IsUncancelled
        ∧ host.Spares (request solution.graph .solution query options) session.attempted)
      ∧ ∃ (outcome : Outcome) (after : Session Unit),
        (dispatcher.dispatchTallied solution.graph .solution (.named query) options).run
            (session.tallied 0 0) = (.ok outcome, after.tallied 1 1)
          ∧ outcome.trace = [.notAttempted, .remoteAttempted, .remoteUnavailable, .localFallback,
            .completed] := by
  intro project solution query options session host dispatcher
  have uncancelled : session.IsUncancelled := ⟨rfl, rfl⟩
  have spares : host.Spares (request solution.graph .solution query options) session.attempted :=
    fun frame _ => ⟨(fun h => by cases h), rfl, rfl⟩
  have htarget : ∀ id ∈ SearchTarget.solution.project?, id ∈ solution.ids := by
    intro id hid
    cases hid
  have hempty : isTriviallyEmpty (.named query) options = false := by decide +kernel
  have hsent : (Wire.encode (request solution.graph .solution query options)).isOk = true := by
    decide +kernel
  obtain ⟨outcome, after, calls, -, htallied, htraced⟩ := dispatch_traced htarget
    query.neverCancels options dispatcher uncancelled fun other hother name hname => by
      obtain rfl := Option.some.inj hother
      obtain rfl := Query.named.inj hname
      exact spares
  obtain ⟨hcalls, -, -, haway, -⟩ := htraced.hosted hempty query rfl host rfl
  cases hframe : Wire.encode (request solution.graph .solution query options) with
  | error error =>
    rw [hframe] at hsent
    cases hsent
  | ok frame =>
    have htrace := haway.2 ⟨frame, hframe, rfl⟩
    rw [hcalls.2 ⟨frame, hframe⟩, Outcome.ranLocally, htrace] at htallied
    exact ⟨⟨uncancelled, spares⟩, outcome, after, htallied, htrace⟩

end Dispatcher

end SymbolSearch
