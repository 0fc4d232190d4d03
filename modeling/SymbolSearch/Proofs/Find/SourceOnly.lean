import Mathlib.Order.Compare
import SymbolSearch.Proofs.Find.ByName
import SymbolSearch.Proofs.Find.ByPattern
import SymbolSearch.Proofs.Merge.Sources

/-!
# Searches of the source

A search of the source finds the same symbols in the same order whatever the libraries of the
project, although these shift the handles. The symbols of the source are embedded in order: a symbol
is seen alike at both handles, and of two symbols the same one comes first.
-/

namespace SymbolSearch

/-- Ascending numbers with the same images are related by a function that keeps their order. -/
theorem exists_strictMonoOn_of_map_eq {β : Type} {small large : List Nat} {f g : Nat → β}
    (hsmall : small.Pairwise (· < ·)) (hlarge : large.Pairwise (· < ·))
    (h : large.map g = small.map f) :
    ∃ embed : Nat → Nat, large = small.map embed ∧ (∀ n ∈ small, g (embed n) = f n)
      ∧ StrictMonoOn embed {n | n ∈ small} := by
  induction small generalizing large with
  | nil =>
    rw [List.map_nil, List.map_eq_nil_iff] at h
    exact ⟨id, h, by simp, strictMono_id.strictMonoOn _⟩
  | cons n rest ih =>
    obtain ⟨m, others, rfl, hm, hothers⟩ := List.map_eq_cons_iff.1 h
    obtain ⟨hn, hrest⟩ := List.pairwise_cons.1 hsmall
    obtain ⟨hlt, hlarge⟩ := List.pairwise_cons.1 hlarge
    obtain ⟨embed, rfl, himage, hmono⟩ := ih hrest hlarge hothers
    have hne : ∀ a ∈ rest, a ≠ n := fun a ha => Nat.ne_of_gt (hn a ha)
    have hself : ∀ a ∈ rest, Function.update embed n m a = embed a :=
      fun a ha => Function.update_of_ne (hne a ha) _ _
    refine ⟨Function.update embed n m, ?_, ?_, ?_⟩
    · rw [List.map_cons, Function.update_self, List.map_congr_left hself]
    · intro a ha
      rcases List.mem_cons.1 ha with rfl | ha
      · rw [Function.update_self, hm]
      · rw [hself a ha, himage a ha]
    · intro a ha b hb hab
      rcases List.mem_cons.1 ha with rfl | ha'
      · rcases List.mem_cons.1 hb with rfl | hb'
        · exact absurd hab (Nat.lt_irrefl _)
        · rw [Function.update_self, hself b hb']
          exact hlt _ (List.mem_map_of_mem hb')
      · rcases List.mem_cons.1 hb with rfl | hb'
        · exact absurd hab (Nat.lt_asymm (hn a ha'))
        · rw [hself a ha', hself b hb']
          exact hmono ha' hb' hab

namespace SymbolIndex

variable {index small large : SymbolIndex} {options : FindOptions} {embed : Nat → Nat}

/-! ### Symbols of the source -/

def isSource (index : SymbolIndex) (handle : Nat) : Bool := (index.view? handle).any (·.isSource)

def sourceHandles (index : SymbolIndex) : List Nat :=
  (List.range index.symbolCount).filter index.isSource

theorem map_view?_sourceHandles (wellFormed : index.WellFormed) :
    index.sourceHandles.map index.view?
      = ((SymbolNode.viewsAll [] index.forest).filter (·.isSource)).map some := by
  have h := congrArg (List.filter fun view? => view?.any (·.isSource)) (map_view?_range wellFormed)
  rw [List.filter_map, List.filter_map] at h
  exact h

theorem isSome_view? {handle : Nat} (h : handle ∈ index.sourceHandles) :
    (index.view? handle).isSome = true := by
  have hsource := (List.mem_filter.1 h).2
  rw [isSource] at hsource
  cases hview : index.view? handle with
  | none =>
    rw [hview] at hsource
    cases hsource
  | some view => rfl

def accepted (index : SymbolIndex) (options : FindOptions) : List Nat :=
  (List.range index.symbolCount).filter (index.accepts options)

/-- In a search of the source, only symbols of the source are accepted. -/
theorem accepted_eq (index : SymbolIndex) (hscope : options.scope = .sourceOnly) :
    index.accepted options = index.sourceHandles.filter (index.accepts options) := by
  rw [accepted, sourceHandles, List.filter_filter]
  apply List.filter_congr
  intro handle _
  rw [accepts_eq_view?, isSource, hscope]
  cases index.view? handle with
  | none => rfl
  | some view =>
    change (_ && view.isSource) = ((_ && view.isSource) && view.isSource)
    rw [Bool.and_assoc, Bool.and_self]

/-- The symbols of the source of one index within another one. -/
structure Embeds (embed : Nat → Nat) (small large : SymbolIndex) : Prop where
  handles : large.sourceHandles = small.sourceHandles.map embed
  view?_eq : ∀ handle ∈ small.sourceHandles, large.view? (embed handle) = small.view? handle
  strictMonoOn : StrictMonoOn embed {handle | handle ∈ small.sourceHandles}

theorem exists_embeds (hsmall : small.WellFormed) (hlarge : large.WellFormed)
    (h : (SymbolNode.viewsAll [] large.forest).filter (·.isSource)
      = (SymbolNode.viewsAll [] small.forest).filter (·.isSource)) :
    ∃ embed, Embeds embed small large := by
  have hviews : large.sourceHandles.map large.view? = small.sourceHandles.map small.view? := by
    rw [map_view?_sourceHandles hlarge, map_view?_sourceHandles hsmall, h]
  obtain ⟨embed, hhandles, hview, hmono⟩ := exists_strictMonoOn_of_map_eq
    (List.pairwise_lt_range.filter _) (List.pairwise_lt_range.filter _) hviews
  exact ⟨embed, hhandles, hview, hmono⟩

namespace Embeds

variable (embeds : Embeds embed small large)

include embeds

theorem name?_eq {handle : Nat} (h : handle ∈ small.sourceHandles) :
    large.name? (embed handle) = small.name? handle := by
  rw [name?_eq_view?, name?_eq_view?, embeds.view?_eq handle h]

theorem accepts_eq {handle : Nat} (h : handle ∈ small.sourceHandles) :
    large.accepts options (embed handle) = small.accepts options handle := by
  rw [accepts_eq_view?, accepts_eq_view?, embeds.view?_eq handle h]

theorem accepted_eq (hscope : options.scope = .sourceOnly) :
    large.accepted options = (small.accepted options).map embed := by
  rw [large.accepted_eq hscope, small.accepted_eq hscope, embeds.handles, List.filter_map]
  apply congrArg
  exact List.filter_congr fun handle h => embeds.accepts_eq h

end Embeds

theorem mem_sourceHandles_of_accepts (hscope : options.scope = .sourceOnly) {handle : Nat}
    (h : index.accepts options handle = true) : handle ∈ index.sourceHandles := by
  have hmem : handle ∈ index.accepted options :=
    List.mem_filter.2 ⟨List.mem_range.2 (lt_symbolCount_of_accepts h), h⟩
  rw [index.accepted_eq hscope] at hmem
  exact (List.mem_filter.1 hmem).1

/-! ### Scans -/

theorem Embeds.findByPredicate_eq (embeds : Embeds embed small large)
    (hscope : options.scope = .sourceOnly) (holds : String → Bool) :
    large.findByPredicate holds options = (small.findByPredicate holds options).map embed := by
  change (large.accepted options).filter _ = ((small.accepted options).filter _).map embed
  rw [embeds.accepted_eq hscope, List.filter_map]
  apply congrArg
  apply List.filter_congr
  intro handle h
  have hsource := mem_sourceHandles_of_accepts hscope (List.mem_filter.1 h).2
  rw [Function.comp_apply, embeds.name?_eq hsource]

/-! ### Fits -/

/-- Sorting puts the symbols that fit in the same order, whatever order they were scored in. -/
theorem listed_eq (index : SymbolIndex) (options : FindOptions)
    (score : String → Option MatchScore) :
    index.listed options score = ((index.scored options score).mergeSort isBefore).map (·.2) := by
  have hperm : ((scoreGroups score (index.acceptedGroups options)).mergeSort isBefore).Perm
      ((index.scored options score).mergeSort isBefore) :=
    (List.mergeSort_perm _ _).trans (scoreGroups_perm.trans (List.mergeSort_perm _ _).symm)
  have hsorted (fits : List (MatchScore × Nat)) :
      (fits.mergeSort isBefore).Pairwise fun a b => isBefore a b = true :=
    pairwise_mergeSort_isLE MatchScore.listOrder fits
  rw [listed]
  apply congrArg
  refine hperm.eq_of_pairwise ?_ (hsorted _) (hsorted _)
  rintro ⟨fit, handle⟩ ⟨other, handle'⟩ ha hb hab hba
  have hsame : MatchScore.listOrder (fit, handle) (other, handle') = .eq :=
    Std.OrientedCmp.isLE_antisymm hab hba
  obtain rfl : handle = handle' := Nat.compare_eq_eq.1 (Ordering.then_eq_eq.1 hsame).2
  have hmem {fit : MatchScore}
      (h : (fit, handle) ∈ (index.scored options score).mergeSort isBefore) :
      index.fit? score handle = some fit := (mem_scored_iff.1 (List.mem_mergeSort.1 h)).2
  have ha' : (fit, handle) ∈ (index.scored options score).mergeSort isBefore := hperm.mem_iff.1 ha
  rw [Option.some.inj ((hmem ha').symm.trans (hmem hb))]

theorem Embeds.scored_eq (embeds : Embeds embed small large) (hscope : options.scope = .sourceOnly)
    (score : String → Option MatchScore) :
    large.scored options score
      = (small.scored options score).map fun fit => (fit.1, embed fit.2) := by
  change (large.accepted options).filterMap _ = ((small.accepted options).filterMap _).map _
  rw [embeds.accepted_eq hscope, List.filterMap_map, List.map_filterMap]
  apply List.filterMap_congr
  intro handle h
  have hsource := mem_sourceHandles_of_accepts hscope (List.mem_filter.1 h).2
  rw [Function.comp_apply, fit?, fit?, embeds.name?_eq hsource, Option.map_map]
  rfl

theorem Embeds.isBefore_eq (embeds : Embeds embed small large) (a b : MatchScore × Nat)
    (ha : a.2 ∈ small.sourceHandles) (hb : b.2 ∈ small.sourceHandles) :
    isBefore a b = isBefore (a.1, embed a.2) (b.1, embed b.2) := by
  have hcompare : compare (embed a.2) (embed b.2) = compare a.2 b.2 := by
    rw [← cmp_eq_compare, ← cmp_eq_compare, embeds.strictMonoOn.cmp_map_eq ha hb]
  rw [isBefore, isBefore, hcompare]

theorem Embeds.listed_eq (embeds : Embeds embed small large) (hscope : options.scope = .sourceOnly)
    (score : String → Option MatchScore) :
    large.listed options score = (small.listed options score).map embed := by
  have hsource : ∀ a ∈ small.scored options score, a.2 ∈ small.sourceHandles := by
    intro a ha
    exact mem_sourceHandles_of_accepts hscope (mem_scored_iff.1 ha).1
  have hsort : ((small.scored options score).map fun fit => (fit.1, embed fit.2)).mergeSort isBefore
      = ((small.scored options score).mergeSort isBefore).map fun fit => (fit.1, embed fit.2) :=
    (List.map_mergeSort fun a ha b hb => embeds.isBefore_eq a b (hsource a ha) (hsource b hb)).symm
  rw [large.listed_eq, small.listed_eq, embeds.scored_eq hscope, hsort, List.map_map, List.map_map]
  rfl

/-! ### Searches -/

theorem Embeds.isEmpty_scoreGroups (embeds : Embeds embed small large)
    (hscope : options.scope = .sourceOnly) (score : String → Option MatchScore) :
    (scoreGroups score (large.acceptedGroups options)).isEmpty
      = (scoreGroups score (small.acceptedGroups options)).isEmpty := by
  rw [scoreGroups_perm.isEmpty_eq, scoreGroups_perm.isEmpty_eq, embeds.scored_eq hscope,
    List.isEmpty_map]

/-- Every search finds nothing in any index, or is a scan, or lists what fits a pattern. -/
theorem find_cases (query : Query) (options : FindOptions) :
    (∀ index : SymbolIndex, index.find query options = [])
    ∨ (∃ holds, ∀ index : SymbolIndex,
      index.find query options = index.findByPredicate holds options)
    ∨ ∃ pattern : Pattern, ∀ index : SymbolIndex, index.find query options
      = if (scoreGroups pattern.score (index.acceptedGroups options)).isEmpty
            && options.editFallback then
          index.listed options pattern.scoreEdits
        else index.listed options pattern.score := by
  by_cases hnothing : (options.filter.isEmpty || query.isBlank) = true
  · exact .inl fun index => if_pos hnothing
  · match query, hnothing with
    | .named (.exact name), hnothing =>
      refine .inr (.inl ⟨isNamed name false, fun index => ?_⟩)
      exact (if_neg hnothing).trans (index.findByName_eq name false options)
    | .named (.ignoreCase name), hnothing =>
      refine .inr (.inl ⟨isNamed name true, fun index => ?_⟩)
      exact (if_neg hnothing).trans (index.findByName_eq name true options)
    | .named (.fuzzy text), hnothing =>
      obtain ⟨hfilter, htext⟩ := Bool.or_eq_false_iff.1 (Bool.eq_false_iff.2 hnothing)
      exact .inr (.inr ⟨⟨Text.trim text⟩, fun index => find_fuzzy_eq htext hfilter rfl⟩)
    | .predicate predicate, hnothing =>
      exact .inr (.inl ⟨predicate.holds, fun index => if_neg hnothing⟩)

/-- A search of the source finds the same symbols, whatever else is in the index. -/
theorem Embeds.find_eq (embeds : Embeds embed small large) (hscope : options.scope = .sourceOnly)
    (query : Query) : large.find query options = (small.find query options).map embed := by
  rcases find_cases query options with hnone | ⟨holds, hscan⟩ | ⟨pattern, hlist⟩
  · rw [hnone, hnone, List.map_nil]
  · rw [hscan, hscan, embeds.findByPredicate_eq hscope]
  · rw [hlist, hlist, embeds.isEmpty_scoreGroups hscope]
    split
    · exact embeds.listed_eq hscope _
    · exact embeds.listed_eq hscope _

theorem accepts_of_mem_find {query : Query} {handle : Nat}
    (h : handle ∈ index.find query options) : index.accepts options handle = true := by
  rcases find_cases query options with hnone | ⟨holds, hscan⟩ | ⟨pattern, hlist⟩
  · rw [hnone] at h
    cases h
  · rw [hscan] at h
    exact (List.mem_filter.1 (List.mem_filter.1 h).1).2
  · rw [hlist] at h
    split at h
    · exact ((ranks_listed.mem handle).1 h).1
    · exact ((ranks_listed.mem handle).1 h).1

theorem Embeds.findCancels_eq (embeds : Embeds embed small large)
    (hscope : options.scope = .sourceOnly) (query : Query) :
    large.findCancels query options = small.findCancels query options := by
  cases query with
  | named query => rfl
  | predicate predicate =>
    simp only [findCancels, embeds.findByPredicate_eq hscope, List.isEmpty_map]

/-! ### What is seen -/

theorem mem_sourceHandles_of_mem_find (hscope : options.scope = .sourceOnly) {query : Query}
    {handle : Nat} (h : handle ∈ index.find query options) : handle ∈ index.sourceHandles :=
  mem_sourceHandles_of_accepts hscope (accepts_of_mem_find h)

/-- All that is found is seen. -/
theorem map_view?_find (index : SymbolIndex) (hscope : options.scope = .sourceOnly)
    (query : Query) : (index.find query options).map index.view?
      = ((index.find query options).filterMap index.view?).map some := by
  rw [List.map_filterMap_some_eq_filter_map_isSome]
  refine (List.filter_eq_self.2 fun view? hview => ?_).symm
  obtain ⟨handle, hfound, rfl⟩ := List.mem_map.1 hview
  exact isSome_view? (mem_sourceHandles_of_mem_find hscope hfound)

theorem Embeds.map_view?_find_eq (embeds : Embeds embed small large)
    (hscope : options.scope = .sourceOnly) (query : Query) :
    (large.find query options).map large.view? = (small.find query options).map small.view? := by
  rw [embeds.find_eq hscope, List.map_map]
  apply List.map_congr_left
  intro handle hfound
  exact embeds.view?_eq handle (mem_sourceHandles_of_mem_find hscope hfound)

/-! ### Projects -/

theorem exists_embeds_build (project : Project) :
    ∃ embed, Embeds embed (build project.withoutLibraries) (build project) := by
  apply exists_embeds (wellFormed_build _) (wellFormed_build _)
  change (SymbolNode.viewsAll [] project.symbolForest).filter _
    = (SymbolNode.viewsAll [] project.withoutLibraries.symbolForest).filter _
  rw [← project.filter_views_symbolForest, List.filter_filter]
  simp only [Bool.and_self]

/-- A search of the source sees the same symbols in the same order, and is cancelled alike, with the
libraries of a project and without them. -/
theorem find_sourceOnly_without_libraries (project : Project) (query : Query)
    (options : FindOptions) (hscope : options.scope = .sourceOnly) :
    let full := build project
    let bare := build project.withoutLibraries
    (∃ seen : List SymbolView,
      (full.find query options).map full.view? = seen.map some
        ∧ (bare.find query options).map bare.view? = seen.map some)
    ∧ full.findCancels query options = bare.findCancels query options := by
  intro full bare
  obtain ⟨embed, embeds⟩ := exists_embeds_build project
  have hseen := bare.map_view?_find hscope query
  exact ⟨⟨_, (embeds.map_view?_find_eq hscope query).trans hseen, hseen⟩,
    embeds.findCancels_eq hscope query⟩

/-- A class in a namespace that a library declares as well has another handle without it. -/
theorem find_sourceOnly_in_shared_namespace :
    let system := (Declaration.ofName .namespaceDecl "System").withChildren
      [.ofName .classDecl "Reader"]
    let project : Project := { info := Sample.project 1 [system] }
    let full := build project
    let bare := build project.withoutLibraries
    let options : FindOptions := {}
    options.scope = .sourceOnly
      ∧ full.find (.named (.exact "Reader")) options = [2]
      ∧ bare.find (.named (.exact "Reader")) options = [1]
      ∧ full.view? 2 = bare.view? 1 := by
  intro system project full bare options
  have hscan (index : SymbolIndex) : index.find (.named (.exact "Reader")) options
      = index.findByPredicate (isNamed "Reader" false) options :=
    (if_neg (by decide +kernel)).trans (index.findByName_eq "Reader" false options)
  have hfull : full.find (.named (.exact "Reader")) options = [2] := by
    rw [hscan]
    decide +kernel
  have hbare : bare.find (.named (.exact "Reader")) options = [1] := by
    rw [hscan]
    decide +kernel
  obtain ⟨⟨seen, hseen, hseen'⟩, -⟩ :=
    find_sourceOnly_without_libraries project (.named (.exact "Reader")) options rfl
  have h := hseen.trans hseen'.symm
  change (full.find _ options).map full.view? = (bare.find _ options).map bare.view? at h
  rw [hfull, hbare] at h
  exact ⟨rfl, hfull, hbare, (List.cons.inj h).1⟩

end SymbolIndex

end SymbolSearch
