import SymbolSearch.Proofs.Search.Route

/-!
# Tallies of searches

How often a host is called and how often there is a local search cannot be read off what a search
gives. So both are tallied beside the state of the host. This makes no difference otherwise: as long
as nobody cancels, a search with tallies runs to the same end as the one without.
-/

namespace SymbolSearch

variable {σ α β : Type}

/-- The state of a host, how often it has been called, and how often a search was local. -/
structure Tally (σ : Type) where
  host : σ
  calls : Nat
  searches : Nat

namespace Session

/-- Nobody has cancelled or will. -/
structure IsUncancelled (session : Session σ) : Prop where
  token : session.token.cancelled = false
  asksLeft : session.asksLeft = none

def tallied (session : Session σ) (calls searches : Nat) : Session (Tally σ) :=
  { session with host := ⟨session.host, calls, searches⟩ }

def untallied (session : Session (Tally σ)) : Session σ :=
  { session with host := session.host.host }

end Session

/-- The host on a session with tallies, where each call of it is counted. -/
def Host.tallied (host : Host σ) : Host (Tally σ) := fun frame session =>
  let (answer, after) := host frame session.untallied
  (answer, after.tallied (session.host.calls + 1) session.host.searches)

namespace SearchM

def tallySearch : SearchM (Tally σ) Unit :=
  modify fun session => session.untallied.tallied session.host.calls (session.host.searches + 1)

/-! ### Runs with and without tallies -/

/-- The first action runs on a session to a value and leaves it uncancelled; so does the second one
with the tallies of the session, to which it adds these calls and searches. -/
structure RunsTo (plain : SearchM σ α) (tallied : SearchM (Tally σ) α) (session : Session σ) (a : α)
    (after : Session σ) (calls searches : Nat) : Prop where
  plain : plain.run session = (.ok a, after)
  tallied : ∀ callsBefore searchesBefore,
    tallied.run (session.tallied callsBefore searchesBefore)
      = (.ok a, after.tallied (callsBefore + calls) (searchesBefore + searches))
  uncancelled : after.IsUncancelled

variable {session middle after : Session σ} {a : α} {b : β} {calls searches : Nat}

theorem RunsTo.bind {plain : SearchM σ α} {tallied : SearchM (Tally σ) α} {next : α → SearchM σ β}
    {next' : α → SearchM (Tally σ) β} {calls' searches' : Nat}
    (hfirst : RunsTo plain tallied session a middle calls searches)
    (hnext : RunsTo (next a) (next' a) middle b after calls' searches') :
    RunsTo (plain >>= next) (tallied >>= next') session b after (calls + calls')
      (searches + searches') where
  plain := by rw [run_bind hfirst.plain, hnext.plain]
  tallied := by
    intro callsBefore searchesBefore
    rw [run_bind (hfirst.tallied _ _), hnext.tallied, Nat.add_assoc, Nat.add_assoc]
  uncancelled := hnext.uncancelled

/-- Nothing is tallied by what comes first. -/
theorem RunsTo.before {plain : SearchM σ α} {tallied : SearchM (Tally σ) α}
    {next : α → SearchM σ β} {next' : α → SearchM (Tally σ) β}
    (hfirst : RunsTo plain tallied session a middle 0 0)
    (hnext : RunsTo (next a) (next' a) middle b after calls searches) :
    RunsTo (plain >>= next) (tallied >>= next') session b after calls searches := by
  have h := hfirst.bind hnext
  rwa [Nat.zero_add, Nat.zero_add] at h

/-- Nothing is tallied by what comes last. -/
theorem RunsTo.followed {plain : SearchM σ α} {tallied : SearchM (Tally σ) α}
    {next : α → SearchM σ β} {next' : α → SearchM (Tally σ) β}
    (hfirst : RunsTo plain tallied session a middle calls searches)
    (hnext : RunsTo (next a) (next' a) middle b after 0 0) :
    RunsTo (plain >>= next) (tallied >>= next') session b after calls searches :=
  hfirst.bind hnext

/-- As long as nobody cancels, the two actions run alike to some value, and nothing is tallied. -/
def Completes (plain : SearchM σ α) (tallied : SearchM (Tally σ) α) : Prop :=
  ∀ session : Session σ, session.IsUncancelled →
    ∃ a after, RunsTo plain tallied session a after 0 0

theorem Completes.bind {plain : SearchM σ α} {tallied : SearchM (Tally σ) α}
    {next : α → SearchM σ β} {next' : α → SearchM (Tally σ) β} (hfirst : Completes plain tallied)
    (hnext : ∀ a, Completes (next a) (next' a)) :
    Completes (plain >>= next) (tallied >>= next') := by
  intro session uncancelled
  obtain ⟨a, middle, hmiddle⟩ := hfirst session uncancelled
  obtain ⟨b, after, hafter⟩ := hnext a middle hmiddle.uncancelled
  exact ⟨b, after, hmiddle.bind hafter⟩

theorem runsTo_pure (h : session.IsUncancelled) (a : α) :
    RunsTo (pure a) (pure a) session a session 0 0 :=
  ⟨rfl, fun _ _ => rfl, h⟩

theorem completes_pure (a : α) : Completes (pure a : SearchM σ α) (pure a) :=
  fun session h => ⟨a, session, runsTo_pure h a⟩

theorem completes_note (event : Event) : Completes (note event : SearchM σ Unit) (note event) :=
  fun session h => ⟨(), { session with events := session.events ++ [event] }, rfl, fun _ _ => rfl,
    ⟨h.token, h.asksLeft⟩⟩

theorem runsTo_checkToken (h : session.IsUncancelled) :
    RunsTo checkToken checkToken session () session 0 0 where
  plain := run_checkToken h.token
  tallied := by
    intro callsBefore searchesBefore
    have htoken : (session.tallied callsBefore searchesBefore).token.cancelled = false := h.token
    exact run_checkToken htoken
  uncancelled := h

theorem completes_checkToken : Completes (checkToken : SearchM σ Unit) checkToken :=
  fun session h => ⟨(), session, runsTo_checkToken h⟩

/-- What the caller answers is known beforehand. -/
theorem Completes.ask {graph : ProjectGraph} {id : ProjectId} {next : Option Project → SearchM σ β}
    {next' : Option Project → SearchM (Tally σ) β}
    (hnext : Completes (next (graph.project? id)) (next' (graph.project? id))) :
    Completes (askProject graph id >>= next) (askProject graph id >>= next') := by
  intro session h
  obtain ⟨b, after, hafter⟩ := hnext session h
  refine ⟨b, after, ?_, fun callsBefore searchesBefore => ?_, hafter.uncancelled⟩
  · rw [run_bind (run_askProject h.asksLeft graph id), hafter.plain]
  · have hasks : (session.tallied callsBefore searchesBefore).asksLeft = none := h.asksLeft
    rw [run_bind (run_askProject hasks graph id), hafter.tallied]

theorem completes_indexOf (project : Project) :
    Completes (indexOf project : SearchM σ SymbolIndex) (indexOf project) := by
  intro session h
  refine ⟨_, _, run_indexOf h.token project, fun callsBefore searchesBefore => ?_,
    ⟨h.token, h.asksLeft⟩⟩
  have htoken : (session.tallied callsBefore searchesBefore).token.cancelled = false := h.token
  exact run_indexOf htoken project

theorem completes_record (states : List DispatchState) :
    Completes (Dispatcher.record states : SearchM σ Unit) (Dispatcher.record states) := by
  induction states with
  | nil => exact completes_pure ()
  | cons state states ih => exact (completes_note _).bind fun _ => ih

/-- A search that is tallied is the same search. -/
theorem RunsTo.tallySearch (h : session.IsUncancelled) {plain : SearchM σ α}
    {tallied : SearchM (Tally σ) α} (hsearch : RunsTo plain tallied session a after 0 0) :
    RunsTo plain (tallySearch >>= fun _ => tallied) session a after 0 1 := by
  have htally : RunsTo (pure ()) SearchM.tallySearch session () session 0 1 :=
    ⟨rfl, fun _ _ => rfl, h⟩
  have hwhole : RunsTo (pure () >>= fun _ => plain) (SearchM.tallySearch >>= fun _ => tallied)
      session a after 0 1 := htally.followed hsearch
  rwa [pure_bind] at hwhole

end SearchM

open SearchM

/-! ### Local searches -/

namespace Engine

variable {query : Query} (cancels : query.NeverCancels) (editFallback : Bool)
  (options : SearchOptions)

include cancels

theorem completes_searchLoaded (project : Project) :
    Completes (searchLoaded editFallback project query options : SearchM σ (List LiveSymbol))
      (searchLoaded editFallback project query options) := by
  rw [searchLoaded, searchLoaded]
  by_cases hempty : isTriviallyEmpty query options = true
  · simp only [hempty, if_true]
    exact completes_pure []
  · simp only [hempty, if_false, findCancels_eq_false cancels, Bool.false_eq_true]
    refine (completes_indexOf project).bind fun index => ?_
    exact (completes_note _).bind fun _ => completes_pure _

theorem completes_searchOne {solution : Solution} {id : ProjectId} (hid : id ∈ solution.ids) :
    Completes (searchOne editFallback solution.graph query options id : SearchM σ (List LiveSymbol))
      (searchOne editFallback solution.graph query options id) := by
  obtain ⟨project, hproject⟩ := Solution.exists_get?_of_mem_ids hid
  rw [searchOne, searchOne]
  refine completes_checkToken.bind fun _ => .ask ?_
  rw [show solution.graph.project? id = some project from hproject]
  exact completes_searchLoaded cancels editFallback options project

theorem completes_searchEach {solution : Solution} {ids : List ProjectId}
    (hids : ∀ id ∈ ids, id ∈ solution.ids) :
    Completes
      (searchEach editFallback solution.graph query options ids : SearchM σ (List LiveSymbol))
      (searchEach editFallback solution.graph query options ids) := by
  induction ids with
  | nil => exact completes_pure []
  | cons id ids ih =>
    rw [List.forall_mem_cons] at hids
    rw [searchEach, searchEach]
    refine (completes_searchOne cancels editFallback options hids.1).bind fun found => ?_
    exact (ih hids.2).bind fun _ => completes_pure _

/-- A local search of what is in the solution completes. -/
theorem completes_search {solution : Solution} {target : SearchTarget}
    (htarget : ∀ id ∈ target.project?, id ∈ solution.ids) :
    Completes
      (search editFallback solution.graph target query options : SearchM σ (List LiveSymbol))
      (search editFallback solution.graph target query options) := by
  cases target with
  | project id => exact completes_searchOne cancels editFallback options (htarget id rfl)
  | solution =>
    rw [search, search, searchAll, searchAll]
    refine completes_checkToken.bind fun _ => ?_
    by_cases hempty : isTriviallyEmpty query options = true
    · simp only [hempty, if_true]
      exact completes_pure []
    · simp only [hempty, if_false, Bool.false_eq_true]
      refine (completes_searchEach cancels editFallback options fun id hid => hid).bind fun _ => ?_
      exact completes_checkToken.bind fun _ => completes_pure _

end Engine

/-! ### Symbols of descriptors -/

namespace Descriptor

theorem completes_resolveWith (descriptor : Descriptor) (index? : Option SymbolIndex) :
    Completes (descriptor.resolveWith index? : SearchM σ (Option LiveSymbol))
      (descriptor.resolveWith index?) := by
  unfold resolveWith
  cases index? with
  | none => exact (completes_note _).bind fun _ => completes_pure none
  | some index =>
    cases hsymbol : descriptor.symbolIn index with
    | none =>
      simp only [hsymbol]
      exact (completes_note _).bind fun _ => completes_pure none
    | some symbol =>
      simp only [hsymbol]
      exact completes_pure (some symbol)

theorem completes_indexFor (graph : ProjectGraph) (id : ProjectId) :
    Completes (indexFor graph id : SearchM σ (Option SymbolIndex)) (indexFor graph id) := by
  rw [indexFor, indexFor]
  refine .ask ?_
  cases graph.project? id with
  | none => exact completes_pure none
  | some project => exact (completes_indexOf project).bind fun _ => completes_pure _

theorem completes_resolveEach (graph : ProjectGraph) (known : Known)
    (descriptors : List Descriptor) :
    Completes (resolveEach graph known descriptors : SearchM σ (List LiveSymbol))
      (resolveEach graph known descriptors) := by
  induction descriptors generalizing known with
  | nil => exact completes_pure []
  | cons descriptor rest ih =>
    have next (known : Known) := (completes_resolveWith (σ := σ) descriptor
      (known.lookup descriptor.project).join).bind fun symbol =>
        (ih known).bind fun symbols => completes_pure (symbol.toList ++ symbols)
    rw [resolveEach, resolveEach]
    refine completes_checkToken.bind fun _ => ?_
    cases known.lookup descriptor.project with
    | some index? => exact (completes_pure known).bind next
    | none =>
      exact (completes_indexFor graph _).bind fun index? => (completes_pure _).bind next

theorem completes_resolveAll (graph : ProjectGraph) (descriptors : List Descriptor) :
    Completes (resolveAll graph descriptors : SearchM σ (List LiveSymbol))
      (resolveAll graph descriptors) :=
  completes_resolveEach graph [] _

end Descriptor

end SymbolSearch
