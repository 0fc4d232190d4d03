import SymbolSearch.Proofs.Table.Views

/-!
# Sources among libraries

Occurrences from documents come before those from libraries on every level. What they are merged to
is the same whether libraries follow them or not, but for its numbers: a library adds symbols and
nodes of its own, and changes nothing that is seen of a symbol of the source.
-/

namespace SymbolSearch

/-- Enclosing symbols that follow the one that is meant change no key. -/
theorem Signature.keyIn_append {around : List SymbolKey} (extra : List SymbolKey)
    {signature : Signature} (fits : signature.Fits around.length) (name : String) :
    signature.keyIn (around ++ extra) name = signature.keyIn around name := by
  have hpath : containerPath (around ++ extra) signature.container
      = containerPath around signature.container := by
    rw [Signature.Fits] at fits
    cases hcontainer : signature.container with
    | none => rfl
    | some position =>
      rw [hcontainer] at fits
      rw [containerPath, Option.bind_some, List.getElem?_append_left fits]
      rfl
  rw [Signature.keyIn, hpath, Signature.keyIn]

namespace Occurrence

variable {around extra : List SymbolKey} {sources libraries : List Occurrence}

/-- All of the occurrences are of one origin. -/
def AreFrom (origin : SymbolOrigin) (occurrences : List Occurrence) : Prop :=
  ∀ o ∈ occurrences, o.origin = origin

theorem AreFrom.named {origin : SymbolOrigin} {occurrences : List Occurrence}
    (h : AreFrom origin occurrences) (name : String) : AreFrom origin (named name occurrences) :=
  fun o ho => h o (List.mem_filter.1 ho).1

theorem AreFrom.level {origin : SymbolOrigin} {group : List Occurrence}
    (h : AreFrom origin group) : AreFrom origin (level group) := by
  intro o ho
  obtain ⟨outer, houter, ho⟩ := List.mem_flatMap.1 ho
  obtain ⟨d, -, rfl⟩ := List.mem_map.1 ho
  exact h outer houter

theorem AreFrom.origin_of_mem_signatures {origin : SymbolOrigin} {group : List Occurrence}
    (h : AreFrom origin group) {signature : Signature} (hsignature : signature ∈ signatures group) :
    signature.origin = origin := by
  obtain ⟨o, ho, rfl⟩ := exists_of_mem_signatures hsignature
  exact h o ho

theorem filter_signature_of_absent {group : List Occurrence} {signature : Signature}
    (h : signature ∉ signatures group) : group.filter (·.signature == signature) = [] := by
  apply List.filter_eq_nil_iff.2
  intro o ho hsame
  exact h (List.mem_eraseDups.2 (List.mem_map.2 ⟨o, ho, beq_iff_eq.1 hsame⟩))

theorem named_append (name : String) :
    named name (sources ++ libraries) = named name sources ++ named name libraries :=
  List.filter_append _ _

theorem nodeOf_of_absent {name : String} (h : name ∉ sources.map (·.name)) :
    nodeOf sources name = ⟨name, [], []⟩ := by
  have hnamed : named name sources = [] := by
    apply List.filter_eq_nil_iff.2
    intro o ho hname
    exact h (List.mem_map.2 ⟨o, ho, beq_iff_eq.1 hname⟩)
  rw [nodeOf, hnamed, merge_eq]
  rfl

theorem entryOf_of_absent_right {signature : Signature} (h : signature ∉ signatures libraries) :
    entryOf (sources ++ libraries) signature = entryOf sources signature := by
  have hnone := filter_signature_of_absent h
  rw [entryOf, List.filter_append, hnone, List.append_nil, entryOf]

theorem entryOf_of_absent_left {signature : Signature} (h : signature ∉ signatures sources) :
    entryOf (sources ++ libraries) signature = entryOf libraries signature := by
  have hnone := filter_signature_of_absent h
  rw [entryOf, List.filter_append, hnone, List.nil_append, entryOf]

theorem signature_mem_of_mem_entries {group : List Occurrence} {entry : Entry}
    (h : entry ∈ entries group) : entry.signature ∈ signatures group := by
  rw [← map_signature_entries]
  exact List.mem_map_of_mem h

theorem views_nodeOf (around : List SymbolKey) (occurrences : List Occurrence) (name : String) :
    SymbolNode.views around (nodeOf occurrences name)
      = (entries (named name occurrences)).map (·.viewIn around name)
        ++ SymbolNode.viewsAll (groupKeys around name occurrences)
          (merge (level (named name occurrences))) := by
  rw [nodeOf, SymbolNode.views, groupKeys, ← map_signature_entries, List.map_map]
  rfl

section

variable (hsources : AreFrom .source sources) (hlibraries : AreFrom .metadata libraries)

include hsources hlibraries

/-! ### One node -/

theorem not_mem_signatures_of_source {signature : Signature} (h : signature ∈ signatures sources) :
    signature ∉ signatures libraries := by
  intro hlibrary
  have horigin := (hsources.origin_of_mem_signatures h).symm.trans
    (hlibraries.origin_of_mem_signatures hlibrary)
  cases horigin

theorem signatures_append :
    signatures (sources ++ libraries) = signatures sources ++ signatures libraries := by
  rw [signatures, List.map_append, Distinct.eraseDups_append_of_disjoint]
  · rfl
  · intro signature hlibrary hsource
    exact not_mem_signatures_of_source hsources hlibraries (List.mem_eraseDups.2 hsource)
      (List.mem_eraseDups.2 hlibrary)

theorem entries_append : entries (sources ++ libraries) = entries sources ++ entries libraries := by
  rw [entries, signatures_append hsources hlibraries, List.map_append]
  congr 1
  · apply List.map_congr_left
    intro signature hsource
    exact entryOf_of_absent_right (not_mem_signatures_of_source hsources hlibraries hsource)
  · apply List.map_congr_left
    intro signature hlibrary
    apply entryOf_of_absent_left
    exact fun hsource => not_mem_signatures_of_source hsources hlibraries hsource hlibrary

/-- What the declarations of the source contain comes first on the level below, in the containers
that it has without libraries. -/
theorem level_append : ∃ below, level (sources ++ libraries) = level sources ++ below
    ∧ AreFrom .metadata below := by
  let symbols := signatures (sources ++ libraries)
  refine ⟨libraries.flatMap fun o => o.inner (symbols.idxOf o.signature), ?_, ?_⟩
  · rw [level, List.flatMap_append]
    congr 1
    apply List.flatMap_congr
    intro o ho
    have hmem : o.signature ∈ signatures sources := List.mem_eraseDups.2 (List.mem_map_of_mem ho)
    rw [signatures_append hsources hlibraries, List.idxOf_append_of_mem hmem]
  · intro o ho
    obtain ⟨outer, houter, ho⟩ := List.mem_flatMap.1 ho
    obtain ⟨d, -, rfl⟩ := List.mem_map.1 ho
    exact hlibraries outer houter

theorem groupKeys_append (hlevel : AreLevel around sources) (name : String) :
    groupKeys (around ++ extra) name (sources ++ libraries)
      = groupKeys around name sources ++ groupKeys (around ++ extra) name libraries := by
  rw [groupKeys, named_append,
    signatures_append (hsources.named name) (hlibraries.named name), List.map_append]
  congr 1
  apply List.map_congr_left
  intro signature hsignature
  obtain ⟨o, ho, rfl⟩ := exists_of_mem_signatures hsignature
  exact Signature.keyIn_append extra (hlevel.fits o (mem_named.1 ho).1) name

/-- The symbols of a node that are seen in the source. -/
theorem filter_views_entries (hlevel : AreLevel around sources) (name : String) :
    ((entries (named name (sources ++ libraries))).map
        (·.viewIn (around ++ extra) name)).filter (·.isSource)
      = (entries (named name sources)).map (·.viewIn around name) := by
  have hsource : ((entries (named name sources)).map (·.viewIn (around ++ extra) name)).filter
      (·.isSource) = (entries (named name sources)).map (·.viewIn around name) := by
    have hviews : (entries (named name sources)).map (·.viewIn (around ++ extra) name)
        = (entries (named name sources)).map (·.viewIn around name) := by
      apply List.map_congr_left
      intro entry hentry
      have fits := forall_signature hlevel.fits entry hentry
      rw [Entry.viewIn, Signature.keyIn_append extra fits, Entry.viewIn]
    rw [hviews, List.filter_map]
    apply congrArg
    apply List.filter_eq_self.2
    intro entry hentry
    exact beq_iff_eq.2
      ((hsources.named name).origin_of_mem_signatures (signature_mem_of_mem_entries hentry))
  have hlibrary : ((entries (named name libraries)).map (·.viewIn (around ++ extra) name)).filter
      (·.isSource) = [] := by
    rw [List.filter_map, List.map_eq_nil_iff]
    apply List.filter_eq_nil_iff.2
    intro entry hentry hview
    have horigin :=
      (hlibraries.named name).origin_of_mem_signatures (signature_mem_of_mem_entries hentry)
    rw [Function.comp_apply, SymbolView.isSource, Entry.viewIn, Signature.keyIn, horigin] at hview
    cases hview
  rw [named_append, entries_append (hsources.named name) (hlibraries.named name), List.map_append,
    List.filter_append, hsource, hlibrary, List.append_nil]

end

/-! ### Forests -/

/-- Of a merged forest, the same is seen in the source as if there were no libraries. -/
theorem filter_views_merge (hlevel : AreLevel around sources) (hsources : AreFrom .source sources)
    (hlibraries : AreFrom .metadata libraries) :
    (SymbolNode.viewsAll (around ++ extra) (merge (sources ++ libraries))).filter (·.isSource)
      = SymbolNode.viewsAll around (merge sources) := by
  -- Sources come first on every level, so those around them keep their positions while `extra`
  -- takes up what libraries put behind.
  generalize hall : sources ++ libraries = all
  induction all using merge.induct generalizing around extra sources libraries with
  | case1 all ih =>
    subst hall
    have hnode : ∀ name ∈ ((sources ++ libraries).map (·.name)).eraseDups,
        (SymbolNode.views (around ++ extra) (nodeOf (sources ++ libraries) name)).filter
          (·.isSource) = SymbolNode.views around (nodeOf sources name) := by
      intro name hname
      obtain ⟨below, hbelow, hfrom⟩ :=
        level_append (hsources.named name) (hlibraries.named name)
      rw [← named_append] at hbelow
      have hinner := @ih name hname (groupKeys around name sources)
        (groupKeys (around ++ extra) name libraries) (level (named name sources)) below
        (level_named around name sources) (hsources.named name).level hfrom hbelow.symm
      rw [views_nodeOf, List.filter_append, filter_views_entries hsources hlibraries hlevel,
        groupKeys_append hsources hlibraries hlevel, hinner, views_nodeOf]
    have hrest : ∀ name ∈ ((libraries.map (·.name)).removeAll (sources.map (·.name))).eraseDups,
        SymbolNode.views around (nodeOf sources name) = [] := by
      intro name hname
      have habsent : name ∉ sources.map (·.name) := by
        have h := List.mem_eraseDups.1 hname
        rw [List.removeAll] at h
        simpa using (List.mem_filter.1 h).2
      rw [nodeOf_of_absent habsent]
      rfl
    rw [SymbolNode.viewsAll_eq, SymbolNode.viewsAll_eq, merge_eq, merge_eq, List.flatMap_map,
      List.flatMap_map, List.filter_flatMap, List.flatMap_congr hnode, List.map_append,
      List.eraseDups_append, List.flatMap_append, List.flatMap_eq_nil_iff.2 hrest, List.append_nil]

end Occurrence

/-! ### Projects -/

namespace Project

/-- The project without its libraries. -/
def withoutLibraries (project : Project) : Project :=
  { info := { project.info with metadataReferences := [] } }

theorem areFrom_occurrences (project : Project) :
    Occurrence.AreFrom .source project.withoutLibraries.occurrences := by
  intro o ho
  rcases List.mem_append.1 ho with ho | ho
  · obtain ⟨document, -, ho⟩ := List.mem_flatMap.1 ho
    obtain ⟨d, -, rfl⟩ := List.mem_map.1 ho
    rfl
  · cases ho

/-- What libraries declare follows what the documents declare. -/
theorem occurrences_eq (project : Project) :
    ∃ libraries, project.occurrences = project.withoutLibraries.occurrences ++ libraries
      ∧ Occurrence.AreFrom .metadata libraries := by
  refine ⟨_, congrArg (· ++ _) (List.append_nil _).symm, ?_⟩
  intro o ho
  obtain ⟨reference, -, ho⟩ := List.mem_flatMap.1 ho
  obtain ⟨d, -, rfl⟩ := List.mem_map.1 ho
  rfl

/-- The symbols of the source are seen alike, and in the same order, without the libraries. -/
theorem filter_views_symbolForest (project : Project) :
    (SymbolNode.viewsAll [] project.symbolForest).filter (·.isSource)
      = SymbolNode.viewsAll [] project.withoutLibraries.symbolForest := by
  obtain ⟨libraries, heq, hlibraries⟩ := project.occurrences_eq
  rw [symbolForest, heq, symbolForest]
  exact @Occurrence.filter_views_merge [] [] _ libraries project.withoutLibraries.level_occurrences
    project.areFrom_occurrences hlibraries

end Project

end SymbolSearch
