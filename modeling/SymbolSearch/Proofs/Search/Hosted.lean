import SymbolSearch.Proofs.Search.Local

/-!
# Searches with any host

A host may be unavailable, fail or reply with any bytes: the search ends all the same. If the bytes
list descriptors, those that describe a symbol of the target are turned into it, each but once, and
the others are dropped; so nothing is listed that is not a symbol of the solution. In any other case
the search is as good as one without a host.
-/

namespace SymbolSearch

variable {hashed : Set Bytes} {σ : Type}

/-! ### Symbols that are described -/

/-- All symbols of the projects of a solution. -/
def Solution.symbols (solution : Solution) : List LiveSymbol :=
  solution.projects.flatMap fun project =>
    (List.range (SymbolIndex.build project).symbolCount).map fun handle =>
      ⟨project.id, .build project, handle⟩

/-- The symbol that a descriptor describes, if there is one. -/
def Solution.described? (solution : Solution) (descriptor : Descriptor) : Option LiveSymbol :=
  solution.symbols.find? (·.descriptor == descriptor)

def SearchTarget.covers : SearchTarget → ProjectId → Bool
  | .solution, _ => true
  | .project id, other => other == id

namespace Solution

variable {solution : Solution}

theorem mem_symbols_iff (hids : solution.ids.Nodup) {symbol : LiveSymbol} :
    symbol ∈ solution.symbols ↔ symbol.IsIn solution.indexes := by
  rw [symbols, List.mem_flatMap]
  constructor
  · rintro ⟨project, hproject, hsymbol⟩
    obtain ⟨handle, hhandle, rfl⟩ := List.mem_map.1 hsymbol
    refine ⟨?_, List.mem_range.1 hhandle⟩
    rw [lookup_indexes, get?_of_mem hids hproject]
    rfl
  · rintro ⟨hlookup, hhandle⟩
    rw [lookup_indexes] at hlookup
    obtain ⟨project, hproject, hindex⟩ := Option.map_eq_some_iff.1 hlookup
    refine ⟨project, List.mem_of_find?_eq_some hproject, List.mem_map.2 ⟨symbol.handle, ?_, ?_⟩⟩
    · rw [hindex]
      exact List.mem_range.2 hhandle
    · rw [hindex, id_of_get? hproject]

/-- A scan of all symbols finds what a descriptor is resolved to. -/
theorem described?_eq_resolved (hids : solution.ids.Nodup) (descriptor : Descriptor) :
    solution.described? descriptor = descriptor.resolved solution.indexes := by
  cases hresolved : descriptor.resolved solution.indexes with
  | none =>
    apply List.find?_eq_none.2
    intro symbol hsymbol hdescriptor
    have hsome := LiveSymbol.resolved_eq_some_iff.2
      ⟨(mem_symbols_iff hids).1 hsymbol, beq_iff_eq.1 hdescriptor⟩
    rw [hresolved] at hsome
    cases hsome
  | some symbol =>
    obtain ⟨hin, hdescriptor⟩ := LiveSymbol.resolved_eq_some_iff.1 hresolved
    have hfound : (solution.described? descriptor).isSome := List.find?_isSome.2
      ⟨symbol, (mem_symbols_iff hids).2 hin, beq_iff_eq.2 hdescriptor⟩
    obtain ⟨other, hother⟩ := Option.isSome_iff_exists.1 hfound
    have hin' := (mem_symbols_iff hids).1 (List.mem_of_find?_eq_some hother)
    have hdescriptor' : other.descriptor = descriptor :=
      beq_iff_eq.1 (List.find?_some (p := fun symbol : LiveSymbol => symbol.descriptor == descriptor)
        hother)
    rw [hother, ← hresolved, LiveSymbol.resolved_eq_some_iff.2 ⟨hin', hdescriptor'⟩]

theorem resolved_eq (hids : solution.ids.Nodup) (target : SearchTarget)
    (descriptors : List Descriptor) : solution.resolved target descriptors
      = (distinct (descriptors.filter (target.covers ·.project))).filterMap
        solution.described? := by
  have htarget : Dispatcher.inTarget target descriptors
      = descriptors.filter (target.covers ·.project) := by
    cases target with
    | solution => exact (List.filter_true descriptors).symm
    | project id => rfl
  rw [resolved, htarget]
  exact List.filterMap_congr fun descriptor _ => (described?_eq_resolved hids descriptor).symm

/-- Different descriptors describe different symbols. -/
theorem pairwise_resolved (solution : Solution) (target : SearchTarget)
    (descriptors : List Descriptor) :
    (solution.resolved target descriptors).Pairwise fun a b => (b == a) = false := by
  refine List.pairwise_filterMap.2 ((Distinct.nodup_eraseDups _).imp ?_)
  intro first second hne a ha b hb
  obtain ⟨hin, rfl⟩ := LiveSymbol.resolved_eq_some_iff.1 ha
  obtain ⟨hin', rfl⟩ := LiveSymbol.resolved_eq_some_iff.1 hb
  rw [← LiveSymbol.beq_descriptor hin' hin]
  exact beq_false_of_ne (Ne.symm hne)

theorem mem_resolved {target : SearchTarget} {descriptors : List Descriptor} {symbol : LiveSymbol}
    (hids : solution.ids.Nodup) (h : symbol ∈ solution.resolved target descriptors) :
    symbol ∈ solution.symbols ∧ symbol.descriptor ∈ descriptors
      ∧ target.covers symbol.project = true := by
  rw [resolved_eq hids] at h
  obtain ⟨descriptor, hdescriptor, hsymbol⟩ := List.mem_filterMap.1 h
  obtain ⟨hmem, hcovers⟩ := List.mem_filter.1 (Distinct.mem_of_mem_eraseDups _ hdescriptor)
  rw [described?_eq_resolved hids] at hsymbol
  obtain ⟨hin, rfl⟩ := LiveSymbol.resolved_eq_some_iff.1 hsymbol
  exact ⟨(mem_symbols_iff hids).2 hin, hmem, hcovers⟩

end Solution

/-! ### Hosts -/

/-- If the host is sent the request, it answers in the end, and it neither cancels the search nor
puts its cache into a state that it could not get into otherwise. -/
def Host.Returns (hashed : Set Bytes) (host : Host σ) (request : Message) (session : Session σ) :
    Prop :=
  ∀ frame, Wire.encode request = .ok frame → ((host frame).run session).1 ≠ .silent
    ∧ ((host frame).run session).2.IsReady hashed

/-- The host is sent the request, and replies with bytes that list the descriptors. -/
def Host.Tells (host : Host σ) (request : Message) (session : Session σ)
    (descriptors : List Descriptor) : Prop :=
  ∃ frame reply, Wire.encode request = .ok frame
    ∧ ((host frame).run session).1 = .reply reply
    ∧ Wire.decode reply = .ok (.declarations descriptors)

namespace Host

variable {host : Host σ} {request : Message} {session : Session σ}

theorem Returns.serves (free : CollisionFree hashed)
    (returns : host.Returns hashed request session) : host.Serves hashed request session :=
  fun frame hframe => ⟨(returns frame hframe).1, (returns frame hframe).2.live free⟩

theorem descriptors?_eq_some_iff {answer : HostAnswer} {descriptors : List Descriptor} :
    answer.descriptors? = some descriptors
      ↔ ∃ reply, answer = .reply reply ∧ Wire.decode reply = .ok (.declarations descriptors) := by
  cases answer with
  | reply reply =>
    simp only [HostAnswer.reply.injEq, exists_eq_left', HostAnswer.descriptors?]
    rcases Wire.decode reply with error | (_ | _ | _) <;> simp
  | unavailable => simp [HostAnswer.descriptors?]
  | failed cause => simp [HostAnswer.descriptors?]
  | silent => simp [HostAnswer.descriptors?]

theorem heard?_eq_some_iff {descriptors : List Descriptor} :
    host.heard? request session = some descriptors ↔ host.Tells request session descriptors := by
  rw [heard?, Tells]
  cases Wire.encode request with
  | error error => simp
  | ok frame =>
    simp only [Except.ok.injEq, exists_and_left, exists_eq_left']
    exact descriptors?_eq_some_iff

end Host

namespace Dispatcher

/-- Whatever a host answers, a search gives a list of symbols. If the host tells of descriptors, the
list is made of the symbols in the target that they describe, in the order of their first
occurrences; they are different symbols of the solution, each of which the host named. Otherwise the
list is the one that is found without a host. -/
theorem answer_hosted (free : CollisionFree hashed) {solution : Solution}
    (hsolution : solution.IsHashed hashed) (hids : solution.ids.Nodup) {target : SearchTarget}
    (htarget : ∀ id ∈ target.project?, id ∈ solution.ids) (dispatcher : Dispatcher σ)
    (host : Host σ) {query : NameQuery} {options : SearchOptions}
    (hempty : isTriviallyEmpty (.named query) options = false) {session : Session σ}
    (ready : session.IsReady hashed)
    (returns : host.Returns hashed (request solution.graph target query options)
      session.attempted) :
    let told := fun descriptors => dispatcher.remoteEnabled = true
      ∧ host.Tells (request solution.graph target query options) session.attempted descriptors
    ∃ outcome alone,
      (dispatcher.withHost (some host)).answer solution.graph target (.named query) options session
          = .ok outcome
        ∧ (dispatcher.withHost none).answer solution.graph target (.named query) options session
          = .ok alone
        ∧ (∀ descriptors, told descriptors →
          outcome.symbols = (distinct (descriptors.filter (target.covers ·.project))).filterMap
              solution.described?
            ∧ outcome.symbols.Pairwise (fun a b => (b == a) = false)
            ∧ ∀ symbol ∈ outcome.symbols,
              symbol ∈ solution.symbols ∧ symbol.descriptor ∈ descriptors)
        ∧ ((¬ ∃ descriptors, told descriptors) → outcome.symbols = alone.symbols) := by
  intro told
  have live := ready.live free
  have cancels := query.neverCancels
  have staysAlone : (dispatcher.withHost none).StaysLocal (.named query) options := by
    rcases dispatcher.activeHost_withHost none with h | h <;> exact .inr (.inr h)
  obtain ⟨alone, halone, hsymbols', -⟩ :=
    exists_answer_locally free cancels hsolution htarget staysAlone live
  by_cases henabled : dispatcher.remoteEnabled = true
  · have hhost : (dispatcher.withHost (some host)).activeHost = some host := if_pos henabled
    obtain ⟨outcome, hanswer, hsymbols, -⟩ := exists_answer_remotely free hsolution query options
      live htarget hhost hempty (returns.serves free)
    refine ⟨outcome, alone, hanswer, halone, ?_, ?_⟩
    · rintro descriptors ⟨-, htells⟩
      rw [Host.heard?_eq_some_iff.2 htells, Option.map_some, Option.getD_some] at hsymbols
      rw [hsymbols]
      refine ⟨Solution.resolved_eq hids target descriptors,
        solution.pairwise_resolved target descriptors, fun symbol hsymbol => ?_⟩
      obtain ⟨hmem, hnamed, -⟩ := Solution.mem_resolved hids hsymbol
      exact ⟨hmem, hnamed⟩
    · intro htold
      have hheard : host.heard? (request solution.graph target query options) session.attempted
          = none := by
        apply Option.eq_none_iff_forall_ne_some.2
        intro descriptors hheard
        exact htold ⟨descriptors, henabled, Host.heard?_eq_some_iff.1 hheard⟩
      rw [hsymbols, hsymbols', hheard]
      rfl
  -- A host that is not enabled is not called, whatever it would tell.
  · have stays : (dispatcher.withHost (some host)).StaysLocal (.named query) options :=
      .inr (.inr (if_neg henabled))
    obtain ⟨outcome, hanswer, hsymbols, -⟩ :=
      exists_answer_locally free cancels hsolution htarget stays live
    refine ⟨outcome, alone, hanswer, halone, ?_, ?_⟩
    · rintro descriptors ⟨htrue, -⟩
      exact absurd htrue henabled
    · intro _
      rw [hsymbols, hsymbols']
      rfl

/-- A host names a class twice, and in between a class that there is not and one of a project that
there is not. -/
theorem answer_hosted_of_forged :
    let project : Project := { info := ⟨⟨1⟩, "P", "P", "C#",
      [⟨⟨1⟩, "p.cs", [Declaration.ofName .classDecl "A"]⟩], [], []⟩ }
    let solution : Solution := ⟨[project]⟩
    let hashed : Set Bytes := {project.info.content, solution.content}
    let named (name : String) (number : UInt32) : Descriptor :=
      ⟨⟨[⟨.classDecl, name, 0, []⟩], .source⟩, ⟨number⟩⟩
    let forged := [named "A" 1, named "B" 1, named "A" 2, named "A" 1]
    let reply := (Wire.encode (.declarations forged)).toOption.getD []
    let host : Host Unit := fun _ => pure (.reply reply)
    let query : NameQuery := .exact "C"
    let options : SearchOptions := ⟨.all, .sourceOnly⟩
    let session : Session Unit := ⟨.empty 1 none, ⟨[], []⟩, ⟨false⟩, none, [], ()⟩
    let dispatcher : Dispatcher Unit := ⟨true, true, none⟩
    (CollisionFree hashed ∧ solution.IsHashed hashed ∧ solution.ids.Nodup ∧ session.IsReady hashed
        ∧ host.Returns hashed (request solution.graph .solution query options) session.attempted)
      ∧ ∃ outcome, (dispatcher.withHost (some host)).answer solution.graph .solution (.named query)
          options session = .ok outcome
        ∧ outcome.symbols.map (fun symbol => (symbol.project, symbol.handle)) = [(⟨1⟩, 0)] := by
  intro project solution hashed named forged reply host query options session dispatcher
  have hfirst : (Fingerprint.ofContent project.info.content).bytes[0]
      ≠ (Fingerprint.ofContent solution.content).bytes[0] := by decide +kernel
  have hlengths : project.info.content.length < Bytes.limit 8
      ∧ solution.content.length < Bytes.limit 8 := by decide +kernel
  have free : CollisionFree hashed := .pair hlengths.1 hlengths.2 hfirst
  have hsolution : solution.IsHashed hashed := Solution.isHashed_singleton project
  have hids : solution.ids.Nodup := by decide
  have ready : session.IsReady hashed := ⟨rfl, rfl, .empty 1⟩
  have htarget : ∀ id ∈ SearchTarget.solution.project?, id ∈ solution.ids := by
    intro id hid
    cases hid
  have hempty : isTriviallyEmpty (.named query) options = false := by decide +kernel
  have returns : host.Returns hashed (request solution.graph .solution query options)
      session.attempted := fun frame _ => ⟨(fun h => by cases h), rfl, rfl, .empty 1⟩
  have htells : host.Tells (request solution.graph .solution query options) session.attempted
      forged := by
    have hsent : (Wire.encode (request solution.graph .solution query options)).isOk = true := by
      decide +kernel
    have hlisted : (Wire.encode (.declarations forged)).isOk = true := by decide +kernel
    cases hframe : Wire.encode (request solution.graph .solution query options) with
    | error error =>
      rw [hframe] at hsent
      cases hsent
    | ok frame =>
      refine ⟨frame, reply, hframe, rfl, Wire.decode_of_encode ?_⟩
      change _ = Except.ok ((Wire.encode (.declarations forged)).toOption.getD [])
      cases hreply : Wire.encode (.declarations forged) with
      | error error =>
        rw [hreply] at hlisted
        cases hlisted
      | ok bytes => rfl
  obtain ⟨outcome, alone, hanswer, -, htold, -⟩ := answer_hosted free hsolution hids htarget
    dispatcher host hempty ready returns
  refine ⟨⟨free, hsolution, hids, ready, returns⟩, outcome, hanswer, ?_⟩
  rw [(htold forged ⟨rfl, htells⟩).1]
  decide +kernel

end Dispatcher

end SymbolSearch
