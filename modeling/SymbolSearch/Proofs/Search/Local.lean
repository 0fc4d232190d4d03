import SymbolSearch.Proofs.Find.SourceOnly
import SymbolSearch.Proofs.Search.Route

/-!
# Local searches

Without a host, a search of a solution lists what the indexes of its projects find, project by
project and each in its own order. Nothing in such a list is repeated, as no index finds a symbol
twice and no two projects have the same id; so projects of the same content are all heard.
-/

namespace SymbolSearch

variable {hashed : Set Bytes} {σ : Type}

/-- The caller has not cancelled and will not; the cache is in any state that it can get into. -/
structure Session.IsReady (hashed : Set Bytes) (session : Session σ) : Prop where
  token : session.token.cancelled = false
  asksLeft : session.asksLeft = none
  cache : session.cache.Reachable hashed

theorem Session.IsReady.live (free : CollisionFree hashed) {session : Session σ}
    (ready : session.IsReady hashed) : session.IsLive hashed :=
  ⟨ready.token, ready.asksLeft, ready.cache.sound free⟩

/-! ### What is found in a project -/

/-- No search of an index lists a symbol twice. -/
theorem SymbolIndex.nodup_find (index : SymbolIndex) (query : Query) (options : FindOptions) :
    (index.find query options).Nodup := by
  rcases find_cases query options with hnone | ⟨holds, hscan⟩ | ⟨pattern, hlist⟩
  · rw [hnone]
    exact List.nodup_nil
  · rw [hscan, findByPredicate]
    exact (List.nodup_range.filter _).filter _
  · rw [hlist]
    split
    · exact ranks_listed.nodup
    · exact ranks_listed.nodup

namespace Engine

/-- What a query finds in the index of a project, as symbols of the project. -/
def partOf (editFallback : Bool) (query : Query) (options : SearchOptions) (project : Project) :
    List LiveSymbol :=
  ((SymbolIndex.build project).find query ⟨options.filter, options.scope, editFallback⟩).map
    fun handle => ⟨project.id, .build project, handle⟩

variable {editFallback : Bool} {query : Query} {options : SearchOptions}

theorem find_of_trivial (h : isTriviallyEmpty query options = true) (index : SymbolIndex)
    (editFallback : Bool) :
    index.find query ⟨options.filter, options.scope, editFallback⟩ = [] := by
  rw [isTriviallyEmpty, Bool.or_comm] at h
  exact if_pos h

/-- All handles that are found are those of symbols. -/
theorem foundIn_build (project : Project) :
    foundIn editFallback query options project.id (.build project)
      = partOf editFallback query options project := by
  rw [foundIn, partOf]
  by_cases hempty : isTriviallyEmpty query options = true
  · rw [if_pos hempty, find_of_trivial hempty, List.map_nil]
  · rw [if_neg hempty, ← List.filterMap_eq_map]
    apply List.filterMap_congr
    intro handle hhandle
    have hlt := SymbolIndex.lt_symbolCount_of_accepts (SymbolIndex.accepts_of_mem_find hhandle)
    rw [SymbolIndex.symbol?, SymbolIndex.info?, Array.getElem?_eq_getElem hlt]
    rfl

end Engine

/-! ### Projects with different ids -/

namespace Engine

variable {editFallback : Bool} {query : Query} {options : SearchOptions} {solution : Solution}

theorem foundAt_of_mem (hids : solution.ids.Nodup) {project : Project}
    (h : project ∈ solution.projects) :
    foundAt editFallback query options solution.indexes project.id
      = partOf editFallback query options project := by
  rw [foundAt, solution.lookup_indexes, Solution.get?_of_mem hids h, ← foundIn_build]
  rfl

theorem found_solution (hids : solution.ids.Nodup) :
    found editFallback solution.indexes .solution query options
      = solution.projects.flatMap (partOf editFallback query options) := by
  rw [found, solution.map_fst_indexes, Solution.ids, List.flatMap_map]
  exact List.flatMap_congr fun project h => foundAt_of_mem hids h

/-! ### Nothing is repeated -/

theorem pairwise_partOf (project : Project) : (partOf editFallback query options project).Pairwise
    fun a b => (b == a) = false := by
  rw [partOf, List.pairwise_map]
  refine (SymbolIndex.nodup_find _ _ _).imp fun {a b} hne => ?_
  have hhandle : (b == a) = false := beq_false_of_ne (Ne.symm hne)
  change (project.id == project.id && b == a && _) = false
  rw [hhandle, Bool.and_false, Bool.false_and]

theorem pairwise_flatMap_partOf {projects : List Project} (hids : (projects.map (·.id)).Nodup) :
    (projects.flatMap (partOf editFallback query options)).Pairwise
      fun a b => (b == a) = false := by
  refine List.pairwise_flatMap.2 ⟨fun project _ => pairwise_partOf project, ?_⟩
  refine (List.pairwise_map.1 hids).imp fun {a b} hne first hfirst second hsecond => ?_
  obtain ⟨handle, -, rfl⟩ := List.mem_map.1 hfirst
  obtain ⟨handle', -, rfl⟩ := List.mem_map.1 hsecond
  have hproject : (b.id == a.id) = false := beq_false_of_ne (Ne.symm hne)
  change (b.id == a.id && handle' == handle && _) = false
  rw [hproject, Bool.false_and, Bool.false_and]

end Engine

namespace Dispatcher

open SearchM

variable {solution : Solution} {target : SearchTarget} {query : Query} {options : SearchOptions}

/-- A search for nothing leaves no trace but that it was completed. -/
theorem run_dispatch_of_trivial (htarget : ∀ id ∈ target.project?, id ∈ solution.ids)
    (hempty : isTriviallyEmpty query options = true) (dispatcher : Dispatcher σ)
    {session : Session σ} (htoken : session.token.cancelled = false)
    (hasks : session.asksLeft = none) :
    (dispatcher.dispatch solution.graph target query options).run session
      = (.ok ⟨[], [.notAttempted, .completed]⟩,
        { session with events := session.events ++ [.dispatched .completed] }) := by
  rw [dispatch_eq, run_bind (run_checkToken htoken), run_bind (run_checkTarget htarget hasks),
    route, if_pos hempty]
  rfl

section

variable (free : CollisionFree hashed) (cancels : query.NeverCancels)
  (hsolution : solution.IsHashed hashed) (htarget : ∀ id ∈ target.project?, id ∈ solution.ids)
  {dispatcher : Dispatcher σ} (hhost : dispatcher.activeHost = none) (options : SearchOptions)

include free cancels hsolution htarget hhost

/-- If nothing that is found is repeated, the search lists it as the indexes do. -/
theorem answer_of_found {session : Session σ} (live : session.IsLive hashed)
    {symbols : List LiveSymbol}
    (hfound : Engine.found dispatcher.editFallback solution.indexes target query options = symbols)
    (hdistinct : symbols.Pairwise fun a b => (b == a) = false) :
    (dispatcher.answer solution.graph target query options session).map (·.symbols) = .ok symbols
      ∧ ((Engine.search dispatcher.editFallback solution.graph target query options).run
          session).1 = .ok symbols
      ∧ distinct symbols = symbols := by
  have hself : distinct symbols = symbols := Distinct.eraseDups_eq_self_of_pairwise hdistinct
  obtain ⟨outcome, hanswer, hsymbols, -⟩ :=
    exists_answer_locally free cancels hsolution htarget (.inr (.inr hhost)) live
  obtain ⟨after, hafter, -, -⟩ := Engine.yields_search free cancels dispatcher.editFallback options
    hsolution htarget session live
  rw [hfound] at hsymbols hafter
  refine ⟨?_, by rw [hafter], hself⟩
  rw [hanswer, Except.map, hsymbols, hself]

end

/-- Without a host, a search of a solution gives the parts of its projects in their order, and a
search of a project its part. It is the same list before repetitions are dropped, so there are none;
projects of the same content have the same part, each under its own id. A search for nothing gives
nothing and leaves the cache as it is. -/
theorem answer_locally (free : CollisionFree hashed) {solution : Solution}
    (hsolution : solution.IsHashed hashed) (hids : solution.ids.Nodup) {dispatcher : Dispatcher σ}
    (hhost : dispatcher.activeHost = none) {query : Query} (cancels : query.NeverCancels)
    (options : SearchOptions) {session : Session σ} (ready : session.IsReady hashed) :
    let part := Engine.partOf dispatcher.editFallback query options
    let whole := solution.projects.flatMap part
    let answered := fun target =>
      (dispatcher.answer solution.graph target query options session).map (·.symbols)
    let searched := fun target =>
      ((Engine.search dispatcher.editFallback solution.graph target query options).run session).1
    (answered .solution = .ok whole ∧ searched .solution = .ok whole ∧ distinct whole = whole)
      ∧ (∀ project ∈ solution.projects, answered (.project project.id) = .ok (part project)
        ∧ searched (.project project.id) = .ok (part project)
        ∧ distinct (part project) = part project)
      ∧ (∀ id ∉ solution.ids, answered (.project id) = .error (.unknownProject id))
      ∧ (∀ a ∈ solution.projects, ∀ b ∈ solution.projects, a.fingerprint = b.fingerprint →
        part b = (part a).map fun symbol => { symbol with project := b.id })
      ∧ (isTriviallyEmpty query options = true → whole = []
        ∧ ∀ target : SearchTarget, (∀ id ∈ target.project?, id ∈ solution.ids) →
          ((dispatcher.dispatch solution.graph target query options).run session).2.cache
            = session.cache) := by
  intro part whole answered searched
  have live := ready.live free
  refine ⟨?_, ?_, ?_, ?_, ?_⟩
  · have htarget : ∀ id ∈ SearchTarget.solution.project?, id ∈ solution.ids := by
      intro id hid
      cases hid
    exact answer_of_found free cancels hsolution htarget hhost options live
      (Engine.found_solution hids) (Engine.pairwise_flatMap_partOf hids)
  · intro project hproject
    have htarget : ∀ id ∈ (SearchTarget.project project.id).project?, id ∈ solution.ids := by
      intro id hid
      obtain rfl := Option.some.inj hid
      exact List.mem_map_of_mem hproject
    exact answer_of_found free cancels hsolution htarget hhost options live
      (Engine.foundAt_of_mem hids hproject) (Engine.pairwise_partOf project)
  · intro id hid
    change Except.map _ (dispatcher.answer _ _ _ _ _) = _
    rw [answer_of_unknown dispatcher hid query options live]
    rfl
  · intro a ha b hb hfingerprint
    have hbuild := SymbolIndex.build_eq_of_fingerprint_eq free (hsolution.projects a ha)
      (hsolution.projects b hb) hfingerprint
    change Engine.partOf _ _ _ b = (Engine.partOf _ _ _ a).map _
    rw [Engine.partOf, Engine.partOf, hbuild, List.map_map]
    rfl
  · intro hempty
    refine ⟨?_, fun target htarget => ?_⟩
    · apply List.flatMap_eq_nil_iff.2
      intro project _
      exact congrArg (List.map _) (Engine.find_of_trivial hempty _ _)
    · rw [run_dispatch_of_trivial htarget hempty dispatcher ready.token ready.asksLeft]

/-- A predicate over two projects of the same content finds their class in each of them. -/
theorem answer_locally_of_twins :
    let documents : List Document := [⟨⟨1⟩, "p.cs", [Declaration.ofName .classDecl "A"]⟩]
    let first : Project := { info := ⟨⟨1⟩, "P", "P", "C#", documents, [], []⟩ }
    let second : Project := { info := ⟨⟨2⟩, "Q", "Q", "C#", documents, [], []⟩ }
    let solution : Solution := ⟨[first, second]⟩
    let hashed : Set Bytes := {first.info.content, solution.content}
    let query : Query := .predicate ⟨fun _ => true, fun _ => false⟩
    let options : SearchOptions := ⟨.all, .sourceOnly⟩
    let session : Session Unit := ⟨.empty 1 none, ⟨[], []⟩, ⟨false⟩, none, [], ()⟩
    let dispatcher : Dispatcher Unit := ⟨true, true, none⟩
    let parts := solution.projects.flatMap (Engine.partOf true query options)
    (CollisionFree hashed ∧ solution.IsHashed hashed ∧ solution.ids.Nodup ∧ query.NeverCancels
        ∧ session.IsReady hashed)
      ∧ (dispatcher.answer solution.graph .solution query options session).map (·.symbols)
        = .ok parts
      ∧ parts.map (fun symbol => (symbol.project, symbol.handle)) = [(⟨1⟩, 0), (⟨2⟩, 0)] := by
  intro documents first second solution hashed query options session dispatcher parts
  have hfirst : (Fingerprint.ofContent first.info.content).bytes[0]
      ≠ (Fingerprint.ofContent solution.content).bytes[0] := by decide +kernel
  have hlengths : first.info.content.length < Bytes.limit 8
      ∧ solution.content.length < Bytes.limit 8 := by decide +kernel
  have free : CollisionFree hashed := .pair hlengths.1 hlengths.2 hfirst
  have hsolution : solution.IsHashed hashed := by
    refine ⟨.inr rfl, fun project hproject => ?_⟩
    rcases List.mem_cons.1 hproject with rfl | hproject
    · exact .inl rfl
    · obtain rfl := List.mem_singleton.1 hproject
      exact .inl rfl
  have hids : solution.ids.Nodup := by decide
  have cancels : query.NeverCancels := by
    intro predicate hpredicate name
    rw [← Query.predicate.inj hpredicate]
  have ready : session.IsReady hashed := ⟨rfl, rfl, .empty 1⟩
  have hhost : dispatcher.activeHost = none := rfl
  obtain ⟨⟨hanswer, -⟩, -⟩ := answer_locally free hsolution hids hhost cancels options ready
  exact ⟨⟨free, hsolution, hids, cancels, ready⟩, hanswer, by decide +kernel⟩

end Dispatcher

end SymbolSearch
