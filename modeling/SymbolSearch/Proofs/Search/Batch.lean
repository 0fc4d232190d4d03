import SymbolSearch.Proofs.Search.Hosted

/-!
# Descriptors resolved together

A list of descriptors is resolved with every project being looked up at most once, and what was
looked up is remembered even if the cache has given it up since. It comes to the same as resolving
the descriptors one by one and leaving out those of nothing.
-/

namespace SymbolSearch

variable {hashed : Set Bytes} {σ : Type}

namespace SearchM

/-- If an action gives a value for every item, it gives these values one after the other. -/
theorem yields_mapM {α β : Type} {action : α → SearchM σ β} {f : α → β}
    (h : ∀ a, Yields hashed (action a) (f a)) (items : List α) :
    Yields hashed (items.mapM action) (items.map f) := by
  induction items with
  | nil => exact yields_pure []
  | cons a items ih =>
    rw [List.mapM_cons]
    exact (h a).bind (ih.bind (yields_pure _))

/-- What is given on every live session is given on one that is ready. -/
theorem Yields.result {α : Type} {action : SearchM σ α} {a : α} (h : Yields hashed action a)
    {session : Session σ} (live : session.IsLive hashed) : (action.run session).1 = .ok a := by
  obtain ⟨after, hrun, -, -⟩ := h session live
  rw [hrun]

end SearchM

namespace Descriptor

open SearchM

variable {solution : Solution}

theorem descriptor_of_described {descriptor : Descriptor} {symbol : LiveSymbol}
    (h : solution.described? descriptor = some symbol) : symbol.descriptor = descriptor :=
  beq_iff_eq.1 (List.find?_some (p := fun symbol : LiveSymbol => symbol.descriptor == descriptor) h)

/-- The symbols that are listed have the descriptors that describe something. -/
theorem map_descriptor_described (solution : Solution) (descriptors : List Descriptor) :
    (descriptors.filterMap solution.described?).map (·.descriptor)
      = descriptors.filter fun descriptor => (solution.described? descriptor).isSome := by
  rw [List.map_filterMap, ← List.filterMap_eq_filter]
  apply List.filterMap_congr
  intro descriptor _
  cases hsymbol : solution.described? descriptor with
  | none => simp [Option.guard, hsymbol]
  | some symbol => simp [Option.guard, hsymbol, descriptor_of_described hsymbol]

/-- What describes nothing and what is repeated may be left out beforehand. -/
theorem filterMap_described_again (solution : Solution) (descriptors : List Descriptor) :
    let symbols := (distinct descriptors).filterMap solution.described?
    (distinct (symbols.map (·.descriptor))).filterMap solution.described? = symbols := by
  intro symbols
  have hnodup : (symbols.map (·.descriptor)).Nodup := by
    rw [map_descriptor_described]
    exact (Distinct.nodup_eraseDups descriptors).filter _
  rw [distinct, Distinct.eraseDups_eq_self hnodup, map_descriptor_described, List.filterMap_filter]
  apply List.filterMap_congr
  intro descriptor _
  cases solution.described? descriptor with
  | none => rfl
  | some symbol => rfl

theorem pairwise_described (hids : solution.ids.Nodup) (descriptors : List Descriptor) :
    ((distinct descriptors).filterMap solution.described?).Pairwise
      fun a b => (b == a) = false := by
  have hpairwise := solution.pairwise_resolved .solution descriptors
  rw [Solution.resolved_eq hids] at hpairwise
  have hall : descriptors.filter (SearchTarget.solution.covers ·.project) = descriptors :=
    List.filter_true descriptors
  rwa [hall] at hpairwise

section

variable (free : CollisionFree hashed) (hsolution : solution.IsHashed hashed)
  (hids : solution.ids.Nodup)

include free hsolution hids

theorem yields_resolve (descriptor : Descriptor) :
    Yields hashed (resolve solution.graph descriptor : SearchM σ (Option LiveSymbol))
      (solution.described? descriptor) := by
  rw [Solution.described?_eq_resolved hids, resolve]
  exact yields_checkToken.bind ((yields_indexFor free hsolution _).bind (yields_resolveWith _ _))

theorem yields_resolveAll_described (descriptors : List Descriptor) :
    Yields hashed (resolveAll solution.graph descriptors : SearchM σ (List LiveSymbol))
      ((distinct descriptors).filterMap solution.described?) := by
  rw [List.filterMap_congr fun descriptor _ => Solution.described?_eq_resolved hids descriptor]
  exact yields_resolveAll free hsolution descriptors

end

/-- For the descriptors of a list, each taken once, resolving the list gives what they are resolved
to one by one, without those of nothing. These are different symbols, each with the project and the
key of its descriptor; and resolving their own descriptors gives them again. -/
theorem resolveAll_one_by_one (free : CollisionFree hashed) {solution : Solution}
    (hsolution : solution.IsHashed hashed) (hids : solution.ids.Nodup)
    (descriptors : List Descriptor) {session : Session σ} (ready : session.IsReady hashed) :
    let graph := solution.graph
    let symbols := (distinct descriptors).filterMap solution.described?
    (∀ descriptor, ((resolve graph descriptor).run session).1 = .ok (solution.described? descriptor))
      ∧ (((distinct descriptors).mapM (resolve graph)).run session).1
        = .ok ((distinct descriptors).map solution.described?)
      ∧ ((resolveAll graph descriptors).run session).1 = .ok symbols
      ∧ symbols.Pairwise (fun a b => (b == a) = false)
      ∧ symbols.map (·.descriptor)
        = (distinct descriptors).filter (fun descriptor =>
            (solution.described? descriptor).isSome)
      ∧ ((resolveAll graph descriptors >>= fun found =>
          resolveAll graph (found.map (·.descriptor))).run session).1 = .ok symbols := by
  intro graph symbols
  have live := ready.live free
  have hall := yields_resolveAll_described (σ := σ) free hsolution hids descriptors
  refine ⟨fun descriptor => ?_, ?_, hall.result live, pairwise_described hids descriptors,
    map_descriptor_described solution _, ?_⟩
  · exact (yields_resolve free hsolution hids descriptor).result live
  · exact (yields_mapM (yields_resolve free hsolution hids) _).result live
  · have hagain := yields_resolveAll_described (σ := σ) free hsolution hids
      (symbols.map (·.descriptor))
    rw [filterMap_described_again solution descriptors] at hagain
    exact (hall.bind hagain).result live

/-- Two projects share their class, a third there is not, and the cache has room for one index. -/
theorem resolveAll_one_by_one_of_twins :
    let documents : List Document := [⟨⟨1⟩, "p.cs", [Declaration.ofName .classDecl "A"]⟩]
    let first : Project := { info := ⟨⟨1⟩, "P", "P", "C#", documents, [], []⟩ }
    let second : Project := { info := ⟨⟨2⟩, "Q", "Q", "C#", documents, [], []⟩ }
    let solution : Solution := ⟨[first, second]⟩
    let hashed : Set Bytes := {first.info.content, solution.content}
    let named (name : String) (number : UInt32) : Descriptor :=
      ⟨⟨[⟨.classDecl, name, 0, []⟩], .source⟩, ⟨number⟩⟩
    let descriptors := [named "A" 2, named "A" 3, named "A" 1, named "B" 1, named "A" 2]
    let session : Session Unit := ⟨.empty 1 none, ⟨[], []⟩, ⟨false⟩, none, [], ()⟩
    (CollisionFree hashed ∧ solution.IsHashed hashed ∧ solution.ids.Nodup
        ∧ session.IsReady hashed)
      ∧ ∃ symbols, ((resolveAll solution.graph descriptors).run session).1 = .ok symbols
        ∧ symbols.map (·.descriptor) = [named "A" 2, named "A" 1] := by
  intro documents first second solution hashed named descriptors session
  have hfirst : (Fingerprint.ofContent first.info.content).bytes[0]
      ≠ (Fingerprint.ofContent solution.content).bytes[0] := by decide +kernel
  have hlengths : first.info.content.length < Bytes.limit 8
      ∧ solution.content.length < Bytes.limit 8 := by decide +kernel
  have free : CollisionFree hashed := .pair hlengths.1 hlengths.2 hfirst
  have hsolution : solution.IsHashed hashed := by
    refine ⟨.inr rfl, fun project hproject => ?_⟩
    rcases List.mem_cons.1 hproject with rfl | hproject
    · exact .inl rfl
    · obtain rfl := List.mem_singleton.1 hproject
      exact .inl rfl
  have hids : solution.ids.Nodup := by decide
  have ready : session.IsReady hashed := ⟨rfl, rfl, .empty 1⟩
  obtain ⟨-, -, hall, -, hdescriptors, -⟩ :=
    resolveAll_one_by_one free hsolution hids descriptors ready
  refine ⟨⟨free, hsolution, hids, ready⟩, _, hall, ?_⟩
  rw [hdescriptors]
  decide +kernel

end Descriptor

end SymbolSearch
