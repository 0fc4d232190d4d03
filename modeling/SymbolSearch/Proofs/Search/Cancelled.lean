import SymbolSearch.Proofs.Search.Traced

/-!
# Cancelled searches

A search that is cancelled gives nothing of what it has found. If it is cancelled when it asks for a
project, the projects before this one have been indexed and no others; if it is cancelled before it
begins, nothing happens at all; and a host that cancels it is not made up for.
-/

namespace SymbolSearch

variable {σ : Type}

/-- The cache has no store, and none of the projects has an index in it. -/
structure IndexCache.IsCold (cache : IndexCache) (ids : List ProjectId) : Prop where
  directory : cache.directory = none
  absent : ∀ slot ∈ cache.slots, slot.1.project ∉ ids

/-- The caller cancels when it is asked for a project for the given time, but not before. -/
structure Session.CancelsAt (session : Session σ) (asks : Nat) : Prop where
  token : session.token.cancelled = false
  asksLeft : session.asksLeft = some asks

namespace IndexCache

variable {cache : IndexCache} {project : Project} {ids : List ProjectId}

theorem isCold_empty (capacity : Nat) (ids : List ProjectId) :
    (empty capacity none).IsCold ids where
  directory := rfl
  absent := by simp [empty]

/-- The first project has to be indexed, and this is no help for the others. -/
theorem IsCold.use (cold : cache.IsCold (project.id :: ids)) (hid : project.id ∉ ids)
    (files : FileTree) : (cache.use files project).cache.IsCold ids
      ∧ (cache.use files project).cache.builds = cache.builds + 1 := by
  have habsent : cache.lookup? project.cacheKey = none := by
    rw [lookup?, List.lookup_eq_none_iff]
    intro slot hslot
    rw [bne_iff_ne]
    rintro hkey
    apply cold.absent slot hslot
    simp [← hkey, Project.cacheKey]
  obtain ⟨-, hcache⟩ := use_of_absent cold.directory habsent files
  rw [hcache]
  refine ⟨⟨cold.directory, fun slot hslot => ?_⟩, rfl⟩
  rcases List.mem_append.1 hslot with hslot | hslot
  · have hnone := cold.absent slot (List.mem_of_mem_drop hslot)
    exact fun hmem => hnone (List.mem_cons_of_mem _ hmem)
  · obtain rfl := List.mem_singleton.1 hslot
    exact hid

end IndexCache

open SearchM

/-! ### Searches that are cancelled on the way -/

namespace SearchM

variable {session : Session σ}

theorem run_checkToken_of_cancelled (h : session.token.cancelled = true) :
    checkToken.run session = (.error .cancelled, session) := by
  change (if session.token.cancelled then throw SearchError.cancelled
    else pure PUnit.unit : SearchM σ Unit).run session = _
  rw [h]
  rfl

/-- The caller answers, but has cancelled. -/
theorem run_askProject_last (h : session.CancelsAt 1) (graph : ProjectGraph) (id : ProjectId) :
    (askProject graph id).run session
      = (.ok (graph.project? id), { session with asksLeft := none, token := ⟨true⟩ }) := by
  obtain ⟨cache, files, token, asksLeft, events, host⟩ := session
  obtain rfl : asksLeft = some 1 := h.asksLeft
  rfl

/-- The caller answers and counts. -/
theorem run_askProject_before {asks : Nat} (h : session.CancelsAt (asks + 2)) (graph : ProjectGraph)
    (id : ProjectId) : (askProject graph id).run session
      = (.ok (graph.project? id), { session with asksLeft := some (asks + 1) }) := by
  obtain ⟨cache, files, token, asksLeft, events, host⟩ := session
  obtain rfl : asksLeft = some (asks + 2) := h.asksLeft
  rfl

theorem run_indexOf_of_cancelled (h : session.token.cancelled = true) (project : Project) :
    (indexOf project).run session = (.error .cancelled, session) := by
  have hrequest : session.cache.getOrBuild session.files project session.token
      = .error .cancelled := by
    rw [IndexCache.getOrBuild, h]
    rfl
  have hget : (get : SearchM σ (Session σ)).run session = (.ok session, session) := rfl
  rw [indexOf, run_bind hget]
  simp only [hrequest]
  rfl

end SearchM

namespace Engine

variable {query : Query} (cancels : query.NeverCancels) (editFallback : Bool)
  {options : SearchOptions} (hempty : isTriviallyEmpty query options = false)

include hempty

theorem run_searchLoaded_of_cancelled {session : Session σ} (h : session.token.cancelled = true)
    (project : Project) :
    (searchLoaded editFallback project query options).run session
      = (.error .cancelled, session) := by
  rw [searchLoaded]
  simp only [hempty, Bool.false_eq_true, if_false]
  exact run_bind_error (run_indexOf_of_cancelled h project)

theorem run_searchOne_of_last {solution : Solution} {project : Project}
    (hproject : solution.get? project.id = some project) {session : Session σ}
    (h : session.CancelsAt 1) :
    (searchOne editFallback solution.graph query options project.id).run session
      = (.error .cancelled, { session with asksLeft := none, token := ⟨true⟩ }) := by
  have hask := run_askProject_last h solution.graph project.id
  rw [show solution.graph.project? project.id = some project from hproject] at hask
  rw [searchOne, run_bind (run_checkToken h.token), run_bind hask]
  exact run_searchLoaded_of_cancelled editFallback hempty rfl project

include cancels

/-- A project for which the caller does not cancel yet is searched by its index. -/
theorem exists_searchOne {solution : Solution} {project : Project}
    (hproject : solution.get? project.id = some project) {session : Session σ} {asks : Nat}
    (h : session.CancelsAt (asks + 2)) : ∃ found after,
      (searchOne editFallback solution.graph query options project.id).run session
        = (.ok found, after)
      ∧ after.CancelsAt (asks + 1)
      ∧ after.cache = (session.cache.use session.files project).cache := by
  have hask := run_askProject_before h solution.graph project.id
  rw [show solution.graph.project? project.id = some project from hproject] at hask
  let asked : Session σ := { session with asksLeft := some (asks + 1) }
  have htoken : asked.token.cancelled = false := h.token
  rw [searchOne, run_bind (run_checkToken h.token), run_bind hask]
  simp only [searchLoaded, hempty, Bool.false_eq_true, if_false, findCancels_eq_false cancels]
  rw [run_bind (run_indexOf htoken project)]
  exact ⟨_, _, rfl, ⟨htoken, rfl⟩, rfl⟩

/-- The search of the projects ends at the one for which the caller cancels. -/
theorem exists_searchEach_cancelled {solution : Solution} {ids : List ProjectId}
    (hids : ∀ id ∈ ids, id ∈ solution.ids) (hnodup : ids.Nodup) {session : Session σ}
    (cold : session.cache.IsCold ids) {asks : Nat} (hasks : asks < ids.length)
    (h : session.CancelsAt (asks + 1)) : ∃ after,
      (searchEach editFallback solution.graph query options ids).run session
        = (.error .cancelled, after)
      ∧ after.cache.builds = session.cache.builds + asks := by
  induction ids generalizing session asks with
  | nil => simp at hasks
  | cons id ids ih =>
    rw [List.forall_mem_cons] at hids
    rw [List.nodup_cons] at hnodup
    obtain ⟨project, hproject⟩ := Solution.exists_get?_of_mem_ids hids.1
    obtain rfl := Solution.id_of_get? hproject
    rw [searchEach]
    cases asks with
    | zero =>
      have hfirst := run_searchOne_of_last editFallback hempty hproject h
      exact ⟨_, run_bind_error hfirst, rfl⟩
    | succ asks =>
      obtain ⟨found, middle, hfirst, h', hcache⟩ :=
        exists_searchOne cancels editFallback hempty hproject h
      obtain ⟨cold', hbuilds⟩ := cold.use hnodup.1 session.files
      rw [← hcache] at cold' hbuilds
      obtain ⟨after, hrest, hbuilds'⟩ :=
        ih hids.2 hnodup.2 cold' (Nat.lt_of_succ_lt_succ hasks) h'
      refine ⟨after, ?_, by omega⟩
      rw [run_bind hfirst, run_bind_error hrest]

/-- The local search of a solution has built what was asked for before the caller cancels. -/
theorem exists_search_cancelled {solution : Solution} (hids : solution.ids.Nodup)
    {session : Session σ} (cold : session.cache.IsCold solution.ids) {asks : Nat}
    (hasks : asks < solution.ids.length) (h : session.CancelsAt (asks + 1)) : ∃ after,
      (search editFallback solution.graph .solution query options).run session
        = (.error .cancelled, after)
      ∧ after.cache.builds = session.cache.builds + asks := by
  obtain ⟨after, heach, hbuilds⟩ := exists_searchEach_cancelled cancels editFallback hempty
    (fun id hid => hid) hids cold hasks h
  refine ⟨after, ?_, hbuilds⟩
  rw [search, searchAll, run_bind (run_checkToken h.token)]
  simp only [hempty, Bool.false_eq_true, if_false]
  exact run_bind_error heach

end Engine

/-! ### Hosts that leave the search as it is -/

/-- If the host is sent the request, it answers that it has no symbols to tell of, and neither asks
the caller for projects nor changes its cache. -/
def Host.Declines (host : Host σ) (request : Message) (session : Session σ) : Prop :=
  ∀ frame, Wire.encode request = .ok frame →
    ((host frame).run session).1 ≠ .silent ∧ ((host frame).run session).1.descriptors? = none
      ∧ ((host frame).run session).2.token = session.token
      ∧ ((host frame).run session).2.asksLeft = session.asksLeft
      ∧ ((host frame).run session).2.cache = session.cache

/-- The caller and the cache are as they were. -/
structure Session.Resumes (session after : Session σ) : Prop where
  token : after.token = session.token
  asksLeft : after.asksLeft = session.asksLeft
  cache : after.cache = session.cache

namespace Dispatcher

section

variable {graph : ProjectGraph} {target : SearchTarget} {options : SearchOptions}
  {session : Session σ} (htoken : session.token.cancelled = false)

include htoken

/-- Of a host that declines nothing has come but the time it took. -/
theorem exists_tryRemote_declined {host : Host σ} {query : NameQuery}
    (declines : host.Declines (request graph target query options) session) :
    ∃ result after, (tryRemote host graph target query options).run session = (.ok result, after)
      ∧ result.symbols? = none ∧ session.Resumes after := by
  rw [tryRemote]
  cases hframe : Wire.encode (request graph target query options) with
  | error error => exact ⟨_, session, rfl, rfl, rfl, rfl, rfl⟩
  | ok frame =>
    obtain ⟨hsilent, htells, htoken', hasks, hcache⟩ := declines frame hframe
    have resumes : session.Resumes ((host frame).run session).2 := ⟨htoken', hasks, hcache⟩
    rw [← htoken'] at htoken
    have hcall := run_call (htoken' ▸ htoken) htoken
    simp only [run_bind hcall]
    cases hanswer : ((host frame).run session).1 with
    | silent => exact absurd hanswer hsilent
    | unavailable => exact ⟨.unavailable, _, rfl, rfl, resumes⟩
    | failed cause => exact ⟨.failed cause, _, rfl, rfl, resumes⟩
    | reply reply =>
      rw [hanswer, descriptors?_reply] at htells
      cases hreply : readReply reply with
      | error cause =>
        refine ⟨.failed cause, _, ?_, rfl, resumes⟩
        simp only [hreply]
        rfl
      | ok descriptors => simp [hreply, Except.toOption] at htells

/-- If no host can settle the query, it is left to the local search. -/
theorem exists_attempt_left {dispatcher : Dispatcher σ} {query : Query}
    (hempty : isTriviallyEmpty query options = false)
    (declines : ∀ host ∈ dispatcher.activeHost, ∀ name, query = .named name →
      host.Declines (request graph target name options) session.attempted) :
    ∃ states after, (dispatcher.attemptKnown graph target query options).run session
      = (.ok (.left states), after) ∧ session.Resumes after := by
  rw [attemptKnown]
  simp only [hempty, Bool.false_eq_true, if_false]
  cases query with
  | predicate predicate => exact ⟨_, session, rfl, rfl, rfl, rfl⟩
  | named name =>
    cases hhost : dispatcher.activeHost with
    | none => exact ⟨_, _, rfl, rfl, rfl, rfl⟩
    | some host =>
      have htoken' : session.attempted.token.cancelled = false := htoken
      obtain ⟨result, middle, hresult, hnone, resumes⟩ :=
        exists_tryRemote_declined htoken' (declines host hhost name rfl)
      have hfirst : (record [.remoteAttempted]).run session = (.ok (), session.attempted) := rfl
      have hresumes : session.Resumes middle := ⟨resumes.token, resumes.asksLeft, resumes.cache⟩
      simp only [Query.descriptor?]
      rw [attemptRemotely, run_bind hfirst, run_bind hresult]
      cases result with
      | succeeded symbols => cases hnone
      | unavailable => exact ⟨_, _, rfl, hresumes.token, hresumes.asksLeft, hresumes.cache⟩
      | failed cause => exact ⟨_, _, rfl, hresumes.token, hresumes.asksLeft, hresumes.cache⟩

end

/-- A dispatch of a solution that is cancelled at a project. The projects before this one have been
built and no others. -/
theorem exists_dispatch_cancelled {dispatcher : Dispatcher σ} {solution : Solution}
    (hids : solution.ids.Nodup) {query : Query} (cancels : query.NeverCancels)
    {options : SearchOptions} (hempty : isTriviallyEmpty query options = false)
    {session : Session σ} (cold : session.cache.IsCold solution.ids)
    (declines : ∀ host ∈ dispatcher.activeHost, ∀ name, query = .named name →
      host.Declines (request solution.graph .solution name options) session.attempted)
    {asks : Nat} (hasks : asks < solution.ids.length) (h : session.CancelsAt (asks + 1)) :
    ∃ after,
      (dispatcher.dispatch solution.graph .solution query options).run session
        = (.error .cancelled, after)
      ∧ after.cache.builds = session.cache.builds + asks := by
  obtain ⟨states, middle, hleft, resumes⟩ := exists_attempt_left h.token hempty declines
  have hattempt : (dispatcher.attempt solution.graph .solution query options).run session
      = (.ok (.left states), middle) := by
    rw [attempt, run_bind (run_checkToken h.token)]
    exact hleft
  let noted : Session σ := { middle with events := middle.events ++ [.dispatched .localFallback] }
  have hrecord : (record [.localFallback]).run middle = (.ok (), noted) := rfl
  have cold' : noted.cache.IsCold solution.ids := by
    change middle.cache.IsCold solution.ids
    rw [resumes.cache]
    exact cold
  have h' : noted.CancelsAt (asks + 1) := by
    constructor
    · exact (congrArg Token.cancelled resumes.token).trans h.token
    · exact resumes.asksLeft.trans h.asksLeft
  obtain ⟨after, hsearch, hbuilds⟩ := Engine.exists_search_cancelled cancels
    dispatcher.editFallback hempty hids cold' hasks h'
  refine ⟨after, ?_, ?_⟩
  · rw [dispatch_eq_dispatchWith, dispatchWith, run_bind hattempt, finish, run_bind hrecord,
      run_bind_error hsearch]
  · rw [hbuilds, ← resumes.cache]

/-- What a dispatch does, whatever local search is its own, if it is cancelled beforehand. -/
theorem run_dispatchWith_of_cancelled (dispatcher : Dispatcher σ)
    (search : SearchM σ (List LiveSymbol)) (graph : ProjectGraph) (target : SearchTarget)
    (query : Query) (options : SearchOptions) {session : Session σ}
    (h : session.token.cancelled = true) :
    (dispatcher.dispatchWith search graph target query options).run session
      = (.error .cancelled, session) := by
  have hattempt : (dispatcher.attempt graph target query options).run session
      = (.error .cancelled, session) := run_bind_error (run_checkToken_of_cancelled h)
  exact run_bind_error hattempt

/-- A dispatch whose host cancels the search ends with the call. -/
theorem run_dispatchWith_of_cancelling_host {dispatcher : Dispatcher σ}
    (search : SearchM σ (List LiveSymbol)) {solution : Solution} {target : SearchTarget}
    (htarget : ∀ id ∈ target.project?, id ∈ solution.ids) {query : NameQuery}
    {options : SearchOptions} (hempty : isTriviallyEmpty (.named query) options = false)
    {session : Session σ} (uncancelled : session.IsUncancelled) {host : Host σ}
    (hhost : dispatcher.activeHost = some host) {frame : Bytes}
    (hframe : Wire.encode (request solution.graph target query options) = .ok frame)
    (h : ((host frame).run session.attempted).2.token.cancelled = true) :
    (dispatcher.dispatchWith search solution.graph target (.named query) options).run session
      = (.error .cancelled, ((host frame).run session.attempted).2) := by
  have htoken : session.attempted.token.cancelled = false := uncancelled.token
  have hlift : ExceptT.run (monadLift (host frame) : SearchM σ HostAnswer) session.attempted
      = (.ok ((host frame).run session.attempted).1, ((host frame).run session.attempted).2) := rfl
  have hcall : (call host frame).run session.attempted
      = (.error .cancelled, ((host frame).run session.attempted).2) := by
    rw [call, run_bind (run_checkToken htoken)]
    exact (run_bind hlift).trans (run_bind_error (run_checkToken_of_cancelled h))
  have htry : (tryRemote host solution.graph target query options).run session.attempted
      = (.error .cancelled, ((host frame).run session.attempted).2) := by
    rw [tryRemote]
    simp only [hframe]
    exact run_bind_error hcall
  have hfirst : (record [.remoteAttempted]).run session = (.ok (), session.attempted) := rfl
  have hattempt : (dispatcher.attempt solution.graph target (.named query) options).run session
      = (.error .cancelled, ((host frame).run session.attempted).2) := by
    rw [attempt, run_bind (run_checkToken uncancelled.token),
      run_bind (run_checkTarget htarget uncancelled.asksLeft), attemptKnown]
    simp only [hempty, Bool.false_eq_true, if_false, Query.descriptor?, hhost]
    rw [attemptRemotely, run_bind hfirst, run_bind_error htry]
  exact run_bind_error hattempt

/-- A cancelled search fails as such and gives nothing. If the caller cancels when it is asked for a
project of the solution, exactly the projects before it have been built. If it had cancelled before,
the session is as it was, and no host was called. If a host cancels, then whatever it answers, the
session is as the host has left it, and there was no local search. -/
theorem dispatch_cancelled (dispatcher : Dispatcher σ) (solution : Solution) (query : Query)
    (options : SearchOptions) (session : Session σ) :
    (solution.ids.Nodup → query.NeverCancels → isTriviallyEmpty query options = false →
      session.cache.IsCold solution.ids →
      (∀ host ∈ dispatcher.activeHost, ∀ name, query = .named name →
        host.Declines (request solution.graph .solution name options) session.attempted) →
      ∀ asks, 1 ≤ asks → asks ≤ solution.ids.length → session.CancelsAt asks →
        ∃ after,
          (dispatcher.dispatch solution.graph .solution query options).run session
            = (.error .cancelled, after)
          ∧ after.cache.builds = session.cache.builds + (asks - 1))
      ∧ (session.token.cancelled = true → ∀ target,
        (dispatcher.dispatch solution.graph target query options).run session
            = (.error .cancelled, session)
          ∧ (dispatcher.dispatchTallied solution.graph target query options).run
              (session.tallied 0 0) = (.error .cancelled, session.tallied 0 0))
      ∧ (session.IsUncancelled → isTriviallyEmpty query options = false →
        ∀ target : SearchTarget, (∀ id ∈ target.project?, id ∈ solution.ids) →
          ∀ name host frame, query = .named name → dispatcher.activeHost = some host →
            Wire.encode (request solution.graph target name options) = .ok frame →
            let called := ((host frame).run session.attempted).2
            called.token.cancelled = true →
              (dispatcher.dispatch solution.graph target query options).run session
                  = (.error .cancelled, called)
                ∧ (dispatcher.dispatchTallied solution.graph target query options).run
                    (session.tallied 0 0) = (.error .cancelled, called.tallied 1 0)) := by
  refine ⟨?_, ?_, ?_⟩
  · intro hids cancels hempty cold declines asks hpos hle h
    obtain ⟨asks, rfl⟩ : ∃ before, asks = before + 1 := ⟨asks - 1, by omega⟩
    exact exists_dispatch_cancelled hids cancels hempty cold declines (by omega) h
  · intro h target
    rw [dispatch_eq_dispatchWith]
    exact ⟨run_dispatchWith_of_cancelled dispatcher _ _ _ _ _ h,
      run_dispatchWith_of_cancelled dispatcher.tallied _ _ _ _ _ h⟩
  · rintro uncancelled hempty target htarget name host frame rfl hhost hframe called h
    have hactive : dispatcher.tallied.activeHost = some host.tallied := by
      rw [activeHost_tallied, hhost, Option.map_some]
    have uncancelled' : (session.tallied 0 0).IsUncancelled :=
      ⟨uncancelled.token, uncancelled.asksLeft⟩
    have h' : ((host.tallied frame).run (session.tallied 0 0).attempted).2.token.cancelled = true :=
      h
    rw [dispatch_eq_dispatchWith]
    exact ⟨run_dispatchWith_of_cancelling_host _ htarget hempty uncancelled hhost hframe h,
      run_dispatchWith_of_cancelling_host _ htarget hempty uncancelled' hactive hframe h'⟩

/-- The caller of the first search cancels at the second of two projects, that of the second one
before it begins, and the third one is cancelled by its host. -/
theorem dispatch_cancelled_of_two :
    let first : Project := { info := ⟨⟨1⟩, "A", "A", "C#",
      [⟨⟨1⟩, "A.cs", [Declaration.ofName .classDecl "Test"]⟩], [], []⟩ }
    let second : Project := { info := ⟨⟨2⟩, "B", "B", "C#", first.info.documents, [], []⟩ }
    let solution : Solution := ⟨[first, second]⟩
    let query : Query := .named (.exact "Test")
    let options : SearchOptions := ⟨.all, .sourceOnly⟩
    let session := fun cancelled asksLeft =>
      (⟨.empty 1 none, ⟨[], []⟩, ⟨cancelled⟩, asksLeft, [], ()⟩ : Session Unit)
    let away : Host Unit := fun _ => return .unavailable
    let cancelling : Host Unit := fun _ session => (.silent, { session with token := ⟨true⟩ })
    let dispatched := fun (host : Host Unit) session =>
      ((Dispatcher.mk true true (some host)).dispatch solution.graph .solution query options).run
        session
    let tallied := fun (host : Host Unit) session =>
      ((Dispatcher.mk true true (some host)).dispatchTallied solution.graph .solution query
        options).run (session.tallied 0 0)
    (∃ after, dispatched away (session false (some 2)) = (.error .cancelled, after)
        ∧ after.cache.builds = 1)
      ∧ dispatched away (session true none) = (.error .cancelled, session true none)
      ∧ ∃ called : Session Unit,
        tallied cancelling (session false none) = (.error .cancelled, called.tallied 1 0) := by
  intro first second solution query options session away cancelling dispatched tallied
  have hids : solution.ids.Nodup := by decide
  have hempty : isTriviallyEmpty query options = false := by decide +kernel
  have htarget : ∀ id ∈ SearchTarget.solution.project?, id ∈ solution.ids := by
    intro id hid
    cases hid
  obtain ⟨hasked, -, -⟩ := dispatch_cancelled ⟨true, true, some away⟩ solution query options
    (session false (some 2))
  obtain ⟨-, hbefore, -⟩ := dispatch_cancelled ⟨true, true, some away⟩ solution query options
    (session true none)
  obtain ⟨-, -, hhost⟩ := dispatch_cancelled ⟨true, true, some cancelling⟩ solution query options
    (session false none)
  refine ⟨?_, (hbefore rfl .solution).1, ?_⟩
  · refine hasked hids (NameQuery.neverCancels _) hempty (IndexCache.isCold_empty 1 _) ?_ 2
      (by decide) (by decide) ⟨rfl, rfl⟩
    rintro host hother name -
    obtain rfl := Option.some.inj hother
    exact fun frame _ => ⟨(fun h => by cases h), rfl, rfl, rfl, rfl⟩
  · have hsent : (Wire.encode (request solution.graph .solution (.exact "Test") options)).isOk
        = true := by decide +kernel
    cases hframe : Wire.encode (request solution.graph .solution (.exact "Test") options) with
    | error error =>
      rw [hframe] at hsent
      cases hsent
    | ok frame =>
      exact ⟨_, (hhost ⟨rfl, rfl⟩ hempty .solution htarget _ cancelling frame rfl rfl hframe rfl).2⟩

end Dispatcher

end SymbolSearch
