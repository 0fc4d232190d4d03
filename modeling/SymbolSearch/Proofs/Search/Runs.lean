import SymbolSearch.Proofs.Cached
import SymbolSearch.Search.Session

/-!
# Runs of searches

On a session that nobody cancels and whose cache is sound, a search runs to its end with a result
that does not depend on the session, and leaves the session as fit as it was.
-/

namespace SymbolSearch

variable {hashed : Set Bytes} {σ α β : Type}

/-- Nobody has cancelled or will, and the cache holds what would be built. -/
structure Session.IsLive (hashed : Set Bytes) (session : Session σ) : Prop where
  token : session.token.cancelled = false
  asksLeft : session.asksLeft = none
  cache : session.cache.Sound hashed

/-- The session after its cache has served a request. -/
def Session.served (session : Session σ) (request : IndexCache.Request) : Session σ :=
  { session with
    cache := request.cache, files := request.files, events := session.events ++ request.events }

namespace SearchM

/-- On every live session the action returns the value, and it leaves the session live. -/
def Yields (hashed : Set Bytes) (action : SearchM σ α) (a : α) : Prop :=
  ∀ session : Session σ, session.IsLive hashed → ∃ after : Session σ,
    action.run session = (.ok a, after) ∧ after.IsLive hashed ∧ after.host = session.host

theorem run_bind {action : SearchM σ α} {next : α → SearchM σ β} {session after : Session σ}
    {a : α} (h : action.run session = (.ok a, after)) :
    (action >>= next).run session = (next a).run after := by
  change (fun p : Except SearchError α × Session σ => ExceptT.bindCont next p.1 p.2)
    (action.run session) = _
  rw [h]
  rfl

theorem run_bind_error {action : SearchM σ α} {next : α → SearchM σ β}
    {session after : Session σ} {error : SearchError}
    (h : action.run session = (.error error, after)) :
    (action >>= next).run session = (.error error, after) := by
  change (fun p : Except SearchError α × Session σ => ExceptT.bindCont next p.1 p.2)
    (action.run session) = _
  rw [h]
  rfl

theorem yields_pure (a : α) : Yields hashed (pure a : SearchM σ α) a :=
  fun session live => ⟨session, rfl, live, rfl⟩

theorem Yields.bind {action : SearchM σ α} {next : α → SearchM σ β} {a : α} {b : β}
    (haction : Yields hashed action a) (hnext : Yields hashed (next a) b) :
    Yields hashed (action >>= next) b := by
  intro session live
  obtain ⟨middle, hmiddle, hlive, hhost⟩ := haction session live
  obtain ⟨after, hafter, hlive', hhost'⟩ := hnext middle hlive
  exact ⟨after, (run_bind hmiddle).trans hafter, hlive', hhost'.trans hhost⟩

theorem Yields.seq {action : SearchM σ Unit} {next : SearchM σ β} {b : β}
    (haction : Yields hashed action ()) (hnext : Yields hashed next b) :
    Yields hashed (action >>= fun _ => next) b :=
  haction.bind hnext

theorem yields_note (event : Event) : Yields hashed (note event : SearchM σ Unit) () :=
  fun session live => ⟨{ session with events := session.events ++ [event] }, rfl,
    ⟨live.token, live.asksLeft, live.cache⟩, rfl⟩

theorem run_checkToken {session : Session σ} (h : session.token.cancelled = false) :
    checkToken.run session = (.ok (), session) := by
  change (if session.token.cancelled then throw SearchError.cancelled
    else pure PUnit.unit : SearchM σ Unit).run session = _
  rw [h]
  rfl

theorem yields_checkToken : Yields hashed (checkToken : SearchM σ Unit) () :=
  fun session live => ⟨session, run_checkToken live.token, live, rfl⟩

theorem run_askProject {session : Session σ} (h : session.asksLeft = none) (graph : ProjectGraph)
    (id : ProjectId) : (askProject graph id).run session = (.ok (graph.project? id), session) := by
  obtain ⟨cache, files, token, asksLeft, events, host⟩ := session
  obtain rfl : asksLeft = none := h
  rfl

theorem yields_askProject (graph : ProjectGraph) (id : ProjectId) :
    Yields hashed (askProject graph id : SearchM σ (Option Project)) (graph.project? id) :=
  fun session live => ⟨session, run_askProject live.asksLeft graph id, live, rfl⟩

/-- Whoever has not cancelled is served by the cache. -/
theorem run_indexOf {session : Session σ} (h : session.token.cancelled = false)
    (project : Project) : (indexOf project).run session
      = (.ok (session.cache.use session.files project).held.index,
        session.served (session.cache.use session.files project)) := by
  have hrequest : session.cache.getOrBuild session.files project session.token
      = .ok (session.cache.use session.files project) := by
    rw [IndexCache.getOrBuild, h]
    rfl
  have hget : (get : SearchM σ (Session σ)).run session = (.ok session, session) := rfl
  rw [indexOf, run_bind hget]
  simp only [hrequest]
  rfl

theorem yields_indexOf (free : CollisionFree hashed) {project : Project}
    (hproject : project.IsHashed hashed) :
    Yields hashed (indexOf project : SearchM σ SymbolIndex) (.build project) := by
  intro session live
  obtain ⟨hindex, hcache⟩ := live.cache.use free session.files hproject
  have hrun := run_indexOf live.token project
  rw [hindex] at hrun
  exact ⟨_, hrun, ⟨live.token, live.asksLeft, hcache⟩, rfl⟩

end SearchM

end SymbolSearch
