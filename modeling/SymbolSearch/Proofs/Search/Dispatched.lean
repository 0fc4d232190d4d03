import SymbolSearch.Proofs.Search.Answered
import SymbolSearch.Proofs.Search.Route

/-!
# Searches with and without a worker

A worker beside the caller never changes what is found: its answer is what a local search finds, and
whenever it has none the caller searches locally.
-/

namespace SymbolSearch

variable {hashed : Set Bytes}

/-- The caller has not cancelled and will not; the two caches and the worker are in any states that
they can get into. -/
structure Worker.IsBeside (hashed : Set Bytes) (editFallback : Bool)
    (session : Session (Worker × IndexCache)) : Prop where
  token : session.token.cancelled = false
  asksLeft : session.asksLeft = none
  cache : session.cache.Reachable hashed
  worker : session.host.1.Reachable hashed
  workerCache : session.host.2.Reachable hashed
  editFallback : session.host.1.editFallback = editFallback

/-- What this means for a search. -/
structure Worker.Serves (hashed : Set Bytes) (editFallback : Bool)
    (session : Session (Worker × IndexCache)) : Prop where
  live : session.IsLive hashed
  knows : session.host.1.Knows hashed
  workerCache : session.host.2.Sound hashed
  editFallback : session.host.1.editFallback = editFallback

theorem Worker.IsBeside.serves (free : CollisionFree hashed) {editFallback : Bool}
    {session : Session (Worker × IndexCache)} (beside : IsBeside hashed editFallback session) :
    Serves hashed editFallback session where
  live := ⟨beside.token, beside.asksLeft, beside.cache.sound free⟩
  knows := beside.worker.knows
  workerCache := beside.workerCache.sound free
  editFallback := beside.editFallback

/-- Other steps of a search leave the worker alone. -/
theorem Worker.Serves.of_host_eq {editFallback : Bool}
    {session after : Session (Worker × IndexCache)} (serves : Serves hashed editFallback session)
    (live : after.IsLive hashed) (h : after.host = session.host) :
    Serves hashed editFallback after := by
  constructor
  · exact live
  · rw [h]
    exact serves.knows
  · rw [h]
    exact serves.workerCache
  · rw [h]
    exact serves.editFallback

namespace Dispatcher

open SearchM

/-- A request, or the reply that lists the symbols, exceeds a limit of the protocol. -/
def Unsendable (request : Message) (symbols : List LiveSymbol) : Prop :=
  (∃ error, Wire.encode request = .error error)
    ∨ ∃ error, Wire.encode (.declarations (symbols.map (·.descriptor))) = .error error

theorem inTarget_eq_self {target : SearchTarget} {symbols : List LiveSymbol}
    (h : ∀ symbol ∈ symbols, ∀ id ∈ target.project?, symbol.project = id) :
    inTarget target (distinct (symbols.map (·.descriptor)))
      = distinct (symbols.map (·.descriptor)) := by
  cases target with
  | solution => rfl
  | project id =>
    apply List.filter_eq_self.2
    intro descriptor hdescriptor
    obtain ⟨symbol, hsymbol, rfl⟩ := List.mem_map.1 (Distinct.mem_of_mem_eraseDups _ hdescriptor)
    exact beq_iff_eq.2 (h symbol hsymbol id rfl)

/-- What is found comes back from its descriptors. -/
theorem resolved_found (editFallback : Bool) (solution : Solution) (target : SearchTarget)
    (query : Query) (options : SearchOptions) :
    let found := Engine.found editFallback solution.indexes target query options
    solution.resolved target (distinct (found.map (·.descriptor))) = distinct found := by
  intro found
  have hfound {symbol : LiveSymbol} (h : symbol ∈ found) := Engine.isIn_of_mem_found h
  rw [Solution.resolved, inTarget_eq_self fun symbol h => (hfound h).1]
  exact LiveSymbol.filterMap_resolved fun symbol h => (hfound h).2

theorem descriptors?_of_encode {message : Message} {frame : Bytes}
    (h : Wire.encode message = .ok frame) :
    (HostAnswer.reply frame).descriptors? = match message with
      | .declarations symbols => some symbols
      | _ => none := by
  rw [HostAnswer.descriptors?, Wire.decode_of_encode h]
  cases message <;> rfl

section

variable (free : CollisionFree hashed) {solution : Solution} (hsolution : solution.IsHashed hashed)
  {target : SearchTarget} (htarget : ∀ id ∈ target.project?, id ∈ solution.ids)
  (query : NameQuery) (options : SearchOptions) {editFallback : Bool}
  {session : Session (Worker × IndexCache)} (serves : Worker.Serves hashed editFallback session)

include free hsolution htarget serves

/-- What a worker does with the frame of a request. -/
theorem isFair_separateHost {frame : Bytes}
    (hframe : Wire.encode (request solution.graph target query options) = .ok frame) :
    ((Worker.separateHost frame).run session).2.IsLive hashed
      ∧ Worker.IsFair
          (Engine.found editFallback solution.indexes target (.named query) options)
          ((Worker.separateHost frame).run session).1 := by
  have inner : Session.IsLive hashed
      { session with cache := session.host.2, asksLeft := none, host := () } :=
    ⟨serves.live.token, rfl, serves.workerCache⟩
  obtain ⟨answer, worker, after, hrun, live', hfair⟩ := Worker.run_answer free
    serves.knows hsolution htarget query options hframe inner
  rw [serves.editFallback] at hfair
  rw [Worker.run_separateHost, hrun]
  exact ⟨⟨live'.token, serves.live.asksLeft, serves.live.cache⟩, hfair⟩

/-- A worker tells nothing, or what is found locally, which then fits into a frame. -/
theorem heard_separateHost :
    Worker.separateHost.Serves hashed (request solution.graph target query options) session
      ∧ let found := Engine.found editFallback solution.indexes target (.named query) options
        let heard? := Worker.separateHost.heard? (request solution.graph target query options) session
        heard? = none ∨ heard? = some (distinct (found.map (·.descriptor)))
          ∧ (∃ frame, Wire.encode (request solution.graph target query options) = .ok frame)
          ∧ ∃ frame, Wire.encode (.declarations (distinct (found.map (·.descriptor)))) = .ok frame := by
  have hrun {frame : Bytes}
      (hframe : Wire.encode (request solution.graph target query options) = .ok frame) :=
    isFair_separateHost free hsolution htarget query options serves hframe
  refine ⟨fun frame hframe => ?_, ?_⟩
  · obtain ⟨live', hfair⟩ := hrun hframe
    refine ⟨?_, live'⟩
    rcases hfair with h | ⟨cause, h⟩ | ⟨message, reply, h, -⟩
    · simp [h]
    · simp [h]
    · simp [h]
  · intro found heard?
    cases hframe : Wire.encode (request solution.graph target query options) with
    | error error =>
      refine .inl ?_
      change Host.heard? _ _ _ = none
      rw [Host.heard?, hframe]
    | ok frame =>
      have hheard : heard? = ((Worker.separateHost frame).run session).1.descriptors? := by
        change Host.heard? _ _ _ = _
        rw [Host.heard?, hframe]
      obtain ⟨-, hfair⟩ := hrun hframe
      rw [hheard]
      rcases hfair with h | ⟨cause, h⟩ | ⟨message, reply, h, hencoded, hreply⟩
      · exact .inl (by rw [h]; rfl)
      · exact .inl (by rw [h]; rfl)
      · rw [h, descriptors?_of_encode hencoded]
        rcases hreply with ⟨text, rfl⟩ | rfl
        · exact .inl rfl
        · exact .inr ⟨rfl, ⟨frame, rfl⟩, reply, hencoded⟩

/-- With the worker and without, a search by name gives what is found locally. -/
theorem answer_named (dispatcher : Dispatcher (Worker × IndexCache))
    (hfallback : dispatcher.editFallback = editFallback) {host : Option (Host (Worker × IndexCache))}
    (hhosts : host = none ∨ host = some Worker.separateHost) :
    ∃ outcome, (dispatcher.withHost host).answer solution.graph target (.named query) options
        session = .ok outcome
      ∧ outcome.symbols
        = distinct (Engine.found editFallback solution.indexes target (.named query) options)
      ∧ (isTriviallyEmpty (.named query) options = false →
        Unsendable (request solution.graph target query options) outcome.symbols →
        outcome.ranLocally = true) := by
  by_cases stays : (dispatcher.withHost host).StaysLocal (.named query) options
  · obtain ⟨outcome, hanswer, hsymbols, hlocal⟩ :=
      exists_answer_locally free query.neverCancels hsolution htarget stays serves.live
    rw [← hfallback]
    exact ⟨outcome, hanswer, hsymbols, fun hempty _ => hlocal hempty⟩
  · simp only [StaysLocal, not_or, Bool.not_eq_true] at stays
    obtain ⟨hempty, -, hactive⟩ := stays
    have hhost : (dispatcher.withHost host).activeHost = some Worker.separateHost := by
      have hsame := (dispatcher.activeHost_withHost host).resolve_left hactive
      rw [hsame] at hactive ⊢
      exact hhosts.resolve_left hactive
    obtain ⟨hserves, hheard⟩ := heard_separateHost free hsolution htarget query options
      (serves.of_host_eq serves.live.attempted rfl)
    obtain ⟨outcome, hanswer, hsymbols, hlocal⟩ := exists_answer_remotely free hsolution query
      options serves.live htarget hhost hempty hserves
    rcases hheard with hnone | ⟨hsome, ⟨frame, hframe⟩, reply, hreply⟩
    · rw [hnone] at hsymbols
      rw [← hfallback]
      exact ⟨outcome, hanswer, hsymbols, fun _ _ => hlocal hnone⟩
    · rw [hsome, Option.map_some, Option.getD_some, resolved_found] at hsymbols
      refine ⟨outcome, hanswer, hsymbols, ?_⟩
      rintro - (⟨error, herror⟩ | ⟨error, herror⟩)
      · rw [hframe] at herror
        cases herror
      · rw [hsymbols, ← LiveSymbol.distinct_map_descriptor fun symbol h =>
          (Engine.isIn_of_mem_found h).2, hreply] at herror
        cases herror

end

section

variable {σ : Type} (dispatcher : Dispatcher σ) (host : Option (Host σ))

/-- A predicate never gets as far as the host. -/
theorem route_predicate (graph : ProjectGraph) (target : SearchTarget) (predicate : NamePredicate)
    (options : SearchOptions) :
    (dispatcher.withHost host).route graph target (.predicate predicate) options
      = if isTriviallyEmpty (.predicate predicate) options then
          record [.completed] >>= fun _ => pure ⟨[], [.notAttempted, .completed]⟩
        else dispatcher.runLocally graph target (.predicate predicate) options [.notAttempted] :=
  rfl

theorem answer_predicate (graph : ProjectGraph) (target : SearchTarget) (predicate : NamePredicate)
    (options : SearchOptions) (session : Session σ) :
    (dispatcher.withHost host).answer graph target (.predicate predicate) options session
      = (dispatcher.withHost none).answer graph target (.predicate predicate) options session := by
  rw [answer, answer, dispatch_eq, dispatch_eq]
  simp only [route_predicate]

theorem exists_answer_predicate (free : CollisionFree hashed) {solution : Solution}
    (hsolution : solution.IsHashed hashed) {target : SearchTarget}
    (htarget : ∀ id ∈ target.project?, id ∈ solution.ids) {predicate : NamePredicate}
    (cancels : (Query.predicate predicate).NeverCancels) (options : SearchOptions)
    {session : Session σ} (live : session.IsLive hashed) :
    ∃ outcome, (dispatcher.withHost host).answer solution.graph target (.predicate predicate)
      options session = .ok outcome := by
  have stays : (dispatcher.withHost host).StaysLocal (.predicate predicate) options :=
    .inr (.inl rfl)
  obtain ⟨outcome, hanswer, -⟩ :=
    exists_answer_locally free cancels hsolution htarget stays live
  exact ⟨outcome, hanswer⟩

end

/-- Whether a worker is attached makes no difference to the symbols that a search gives, nor to
their order. A search that nobody cancels does give symbols. What cannot be sent is found
locally. -/
theorem answer_separateHost (free : CollisionFree hashed) {solution : Solution}
    (hsolution : solution.IsHashed hashed) (dispatcher : Dispatcher (Worker × IndexCache))
    {session : Session (Worker × IndexCache)}
    (beside : Worker.IsBeside hashed dispatcher.editFallback session) (target : SearchTarget)
    (query : Query) (options : SearchOptions) :
    let attached := (dispatcher.withHost (some Worker.separateHost)).answer solution.graph target
      query options session
    let alone := (dispatcher.withHost none).answer solution.graph target query options session
    attached.map (·.symbols) = alone.map (·.symbols)
      ∧ ((∀ id ∈ target.project?, id ∈ solution.ids) → query.NeverCancels →
        ∃ outcome, attached = .ok outcome)
      ∧ ∀ outcome name, attached = .ok outcome → query = .named name →
        isTriviallyEmpty query options = false →
        Unsendable (request solution.graph target name options) outcome.symbols →
        outcome.ranLocally = true := by
  have serves := beside.serves free
  intro attached alone
  by_cases htarget : ∀ id ∈ target.project?, id ∈ solution.ids
  · cases query with
    | named name =>
      obtain ⟨outcome, hattached, hsymbols, hlocal⟩ :=
        answer_named free hsolution htarget name options serves dispatcher rfl (.inr rfl)
      obtain ⟨other, halone, hsymbols', -⟩ :=
        answer_named free hsolution htarget name options serves dispatcher rfl (.inl rfl)
      refine ⟨?_, fun _ _ => ⟨outcome, hattached⟩, ?_⟩
      · rw [show attached = _ from hattached, show alone = _ from halone, Except.map, Except.map,
          hsymbols, hsymbols']
      · intro found name' hfound hname hempty hunsendable
        obtain rfl := Except.ok.inj (hattached.symm.trans hfound)
        cases hname
        exact hlocal hempty hunsendable
    | predicate predicate =>
      refine ⟨?_, fun _ cancels => ?_, fun _ _ _ h => by cases h⟩
      · exact congrArg _ (answer_predicate dispatcher _ _ _ predicate options session)
      · exact exists_answer_predicate dispatcher _ free hsolution htarget cancels options
          serves.live
  · cases target with
    | solution => exact absurd (fun id hid => by cases hid) htarget
    | project id =>
      have hid : id ∉ solution.ids := fun h => htarget fun other hother => by
        rw [← Option.some.inj hother]
        exact h
      have hattached : attached = _ := answer_of_unknown _ hid query options serves.live
      have halone : alone = _ := answer_of_unknown _ hid query options serves.live
      refine ⟨by rw [hattached, halone], fun h => absurd h htarget, fun outcome name h => ?_⟩
      rw [hattached] at h
      cases h

/-- The worker knows the only project, in which one class is asked for, and answers itself. -/
theorem answer_separateHost_of_registered :
    let project : Project := { info := ⟨⟨1⟩, "A", "A", "C#",
      [⟨⟨1⟩, "A.cs", [Declaration.ofName .classDecl "Test"]⟩], [], []⟩ }
    let solution : Solution := ⟨[project]⟩
    let hashed : Set Bytes := {project.info.content, solution.content}
    let worker := (Worker.new true).register solution.graph
    let session : Session (Worker × IndexCache) :=
      ⟨.empty 1 none, ⟨[], []⟩, ⟨false⟩, none, [], (worker, .empty 1 none)⟩
    let dispatcher : Dispatcher (Worker × IndexCache) := ⟨true, true, none⟩
    let attached := (dispatcher.withHost (some Worker.separateHost)).answer solution.graph .solution
      (.named (.exact "Test")) ⟨.all, .sourceOnly⟩ session
    let alone := (dispatcher.withHost none).answer solution.graph .solution
      (.named (.exact "Test")) ⟨.all, .sourceOnly⟩ session
    (CollisionFree hashed ∧ solution.IsHashed hashed ∧ Worker.IsBeside hashed true session)
      ∧ attached.map (·.symbols) = alone.map (·.symbols)
      ∧ attached.toOption.map (fun outcome => (outcome.symbols.length, outcome.remoteSucceeded))
        = some (1, true) := by
  intro project solution hashed worker session dispatcher attached alone
  have hfirst : (Fingerprint.ofContent project.info.content).bytes[0]
      ≠ (Fingerprint.ofContent solution.content).bytes[0] := by decide +kernel
  have hlengths : project.info.content.length < Bytes.limit 8
      ∧ solution.content.length < Bytes.limit 8 := by decide +kernel
  have free : CollisionFree hashed := .pair hlengths.1 hlengths.2 hfirst
  have hsolution : solution.IsHashed hashed := Solution.isHashed_singleton project
  have beside : Worker.IsBeside hashed true session :=
    ⟨rfl, rfl, .empty 1, .register (.new true) hsolution, .empty 1, rfl⟩
  have hsame := answer_separateHost free hsolution dispatcher beside .solution
    (.named (.exact "Test")) ⟨.all, .sourceOnly⟩
  exact ⟨⟨free, hsolution, beside⟩, hsame.1, by decide +kernel⟩

end Dispatcher

end SymbolSearch
