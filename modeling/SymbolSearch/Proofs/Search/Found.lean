import SymbolSearch.Proofs.Search.Runs
import SymbolSearch.Proofs.Solution.Edits
import SymbolSearch.Search.Engine

/-!
# What is found

What a query finds in a solution is a matter of the indexes of its projects. A search on a live
session finds exactly this.
-/

namespace SymbolSearch

variable {hashed : Set Bytes} {σ : Type}

/-- The indexes of all projects, by their ids. -/
def Solution.indexes (solution : Solution) : List (ProjectId × SymbolIndex) :=
  solution.projects.map fun project => (project.id, .build project)

/-- The query does not cancel the search that it is part of. -/
def Query.NeverCancels (query : Query) : Prop :=
  ∀ predicate, query = .predicate predicate → ∀ name, predicate.cancels name = false

theorem NameQuery.neverCancels (query : NameQuery) : (Query.named query).NeverCancels :=
  fun predicate h => by cases h

namespace Engine

/-- What is found in one index, which is that of the project `id`. -/
def foundIn (editFallback : Bool) (query : Query) (options : SearchOptions) (id : ProjectId)
    (index : SymbolIndex) : List LiveSymbol :=
  if isTriviallyEmpty query options then []
  else (index.find query ⟨options.filter, options.scope, editFallback⟩).filterMap
    (index.symbol? id)

def foundAt (editFallback : Bool) (query : Query) (options : SearchOptions)
    (indexes : List (ProjectId × SymbolIndex)) (id : ProjectId) : List LiveSymbol :=
  ((indexes.lookup id).map (foundIn editFallback query options id)).getD []

/-- What is found in the target, project by project. -/
def found (editFallback : Bool) (indexes : List (ProjectId × SymbolIndex)) (target : SearchTarget)
    (query : Query) (options : SearchOptions) : List LiveSymbol :=
  match target with
  | .project id => foundAt editFallback query options indexes id
  | .solution => (indexes.map (·.1)).flatMap (foundAt editFallback query options indexes)

end Engine

/-! ### Projects of a solution -/

namespace Solution

theorem map_fst_indexes (solution : Solution) : solution.indexes.map (·.1) = solution.ids := by
  rw [indexes, List.map_map]
  rfl

theorem lookup_indexes (solution : Solution) (id : ProjectId) :
    solution.indexes.lookup id = (solution.get? id).map SymbolIndex.build := by
  obtain ⟨projects⟩ := solution
  rw [indexes, get?]
  induction projects with
  | nil => rfl
  | cons project rest ih =>
    rw [List.map_cons, List.lookup_cons, List.find?_cons]
    by_cases h : project.id = id
    · rw [beq_iff_eq.2 h, beq_iff_eq.2 h.symm]
      rfl
    · rw [beq_false_of_ne h, beq_false_of_ne (Ne.symm h)]
      exact ih

theorem IsHashed.get? {solution : Solution} (hsolution : solution.IsHashed hashed) {id : ProjectId}
    {project : Project} (h : solution.get? id = some project) : project.IsHashed hashed :=
  hsolution.projects project (List.mem_of_find?_eq_some h)

theorem map_build_eq (free : CollisionFree hashed) {as bs : List Project}
    (has : ∀ a ∈ as, a.IsHashed hashed) (hbs : ∀ b ∈ bs, b.IsHashed hashed)
    (h : (as.map fun a => (a.id, a.fingerprint)) = bs.map fun b => (b.id, b.fingerprint)) :
    (as.map fun a => (a.id, SymbolIndex.build a))
      = bs.map fun b => (b.id, SymbolIndex.build b) := by
  induction as generalizing bs with
  | nil =>
    obtain rfl := List.map_eq_nil_iff.1 h.symm
    rfl
  | cons a as ih =>
    cases bs with
    | nil => exact absurd h (List.cons_ne_nil _ _)
    | cons b bs =>
      rw [List.map_cons, List.map_cons, List.cons.injEq, Prod.mk.injEq] at h
      obtain ⟨⟨hid, hfingerprint⟩, hrest⟩ := h
      have hbuild := SymbolIndex.build_eq_of_fingerprint_eq free (has a List.mem_cons_self)
        (hbs b List.mem_cons_self) hfingerprint
      have htail := ih (fun c hc => has c (List.mem_cons_of_mem _ hc))
        (fun c hc => hbs c (List.mem_cons_of_mem _ hc)) hrest
      rw [List.map_cons, List.map_cons, hid, hbuild, htail]

/-- Snapshots of the same checksum have the same indexes. -/
theorem indexes_eq_of_checksum_eq (free : CollisionFree hashed) {a b : Solution}
    (ha : a.IsHashed hashed) (hb : b.IsHashed hashed) (h : a.checksum = b.checksum) :
    a.indexes = b.indexes := by
  have hcontent : a.content = b.content := free.injOn ha.content hb.content h
  exact map_build_eq free ha.projects hb.projects
    (tells_content.eq (free.length_lt _ ha.content) hcontent)

end Solution

/-! ### Local searches -/

namespace Engine

open SearchM

variable {query : Query}

theorem findCancels_eq_false (cancels : query.NeverCancels) (index : SymbolIndex)
    (options : FindOptions) : index.findCancels query options = false := by
  cases query with
  | named query => rfl
  | predicate predicate =>
    have hnone : index.findByPredicate predicate.cancels options = [] :=
      List.filter_eq_nil_iff.2 fun handle _ => by
        rw [cancels predicate rfl]
        exact Bool.false_ne_true
    rw [SymbolIndex.findCancels, hnone]
    exact Bool.and_false _

theorem foundAt_of_trivial {editFallback : Bool} {options : SearchOptions}
    (h : isTriviallyEmpty query options = true) (indexes : List (ProjectId × SymbolIndex))
    (id : ProjectId) : foundAt editFallback query options indexes id = [] := by
  rw [foundAt]
  cases indexes.lookup id with
  | none => rfl
  | some index => exact if_pos h

theorem found_of_trivial {editFallback : Bool} {options : SearchOptions}
    (h : isTriviallyEmpty query options = true) (indexes : List (ProjectId × SymbolIndex))
    (target : SearchTarget) : found editFallback indexes target query options = [] := by
  cases target with
  | project id => exact foundAt_of_trivial h indexes id
  | solution => exact List.flatMap_eq_nil_iff.2 fun id _ => foundAt_of_trivial h indexes id

variable (free : CollisionFree hashed) (cancels : query.NeverCancels) (editFallback : Bool)
  (options : SearchOptions)

include free cancels

theorem yields_searchLoaded {project : Project} (hproject : project.IsHashed hashed) :
    Yields hashed (searchLoaded editFallback project query options : SearchM σ (List LiveSymbol))
      (foundIn editFallback query options project.id (.build project)) := by
  rw [searchLoaded, foundIn]
  by_cases hempty : isTriviallyEmpty query options = true
  · rw [if_pos hempty, if_pos hempty]
    exact yields_pure []
  · rw [if_neg hempty, if_neg hempty]
    refine (yields_indexOf free hproject).bind ?_
    simp only [findCancels_eq_false cancels, Bool.false_eq_true, if_false]
    exact (yields_note _).bind (yields_pure _)

theorem yields_searchOne {solution : Solution} (hsolution : solution.IsHashed hashed)
    {id : ProjectId} (hid : id ∈ solution.ids) :
    Yields hashed (searchOne editFallback solution.graph query options id
        : SearchM σ (List LiveSymbol))
      (foundAt editFallback query options solution.indexes id) := by
  obtain ⟨project, hproject⟩ := solution.exists_get?_of_mem_ids hid
  have hfound := yields_searchLoaded (σ := σ) free cancels editFallback options
    (hsolution.get? hproject)
  rw [Solution.id_of_get? hproject] at hfound
  rw [searchOne, foundAt, solution.lookup_indexes, hproject]
  refine yields_checkToken.bind ((yields_askProject _ _).bind ?_)
  rw [show solution.graph.project? id = some project from hproject]
  exact hfound

theorem yields_searchEach {solution : Solution} (hsolution : solution.IsHashed hashed)
    {ids : List ProjectId} (hids : ∀ id ∈ ids, id ∈ solution.ids) :
    Yields hashed (searchEach editFallback solution.graph query options ids
        : SearchM σ (List LiveSymbol))
      (ids.flatMap (foundAt editFallback query options solution.indexes)) := by
  induction ids with
  | nil => exact yields_pure []
  | cons id ids ih =>
    have hfirst := yields_searchOne (σ := σ) free cancels editFallback options hsolution
      (hids id List.mem_cons_self)
    have hrest := ih fun other hother => hids other (List.mem_cons_of_mem _ hother)
    rw [List.flatMap_cons, searchEach]
    exact hfirst.bind (hrest.bind (yields_pure _))

/-- A local search finds what there is to be found. -/
theorem yields_search {solution : Solution} (hsolution : solution.IsHashed hashed)
    {target : SearchTarget} (htarget : ∀ id ∈ target.project?, id ∈ solution.ids) :
    Yields hashed (search editFallback solution.graph target query options
        : SearchM σ (List LiveSymbol))
      (found editFallback solution.indexes target query options) := by
  cases target with
  | project id =>
    exact yields_searchOne free cancels editFallback options hsolution (htarget id rfl)
  | solution =>
    have heach := yields_searchEach (σ := σ) free cancels editFallback options hsolution
      fun id hid => hid
    rw [search, searchAll, found, solution.map_fst_indexes]
    refine yields_checkToken.bind ?_
    by_cases hempty : isTriviallyEmpty query options = true
    · have hnone : solution.ids.flatMap (foundAt editFallback query options solution.indexes) = [] :=
        List.flatMap_eq_nil_iff.2 fun id _ => foundAt_of_trivial hempty _ id
      rw [if_pos hempty, hnone]
      exact yields_pure []
    · rw [if_neg hempty]
      exact heach.bind (yields_checkToken.bind (yields_pure _))

end Engine

end SymbolSearch
