import Mathlib.Data.List.SplitBy
import SymbolSearch.Project.Sample
import SymbolSearch.Proofs.Table.Names

/-!
# Finding by pattern

A search for a pattern lists the accepted symbols whose names fit it, the best fits first. Names are
grouped so that each is scored once, but what is listed is said of single symbols.
-/

namespace SymbolSearch

/-! ### The order of fits -/

/-- The comparison behind `SymbolIndex.isBefore`. -/
def MatchScore.listOrder : MatchScore × Nat → MatchScore × Nat → Ordering :=
  compareLex (fun a b => compareLex (compareOn (·.1.kind.rank)) (compareOn (·.1.score)) b a)
    (compareOn (·.2))

instance : Std.TransCmp MatchScore.listOrder := by
  rw [MatchScore.listOrder]
  infer_instance

namespace SymbolIndex

variable {index : SymbolIndex} {options : FindOptions} {score : String → Option MatchScore}

theorem isBefore_eq : isBefore = fun a b => (MatchScore.listOrder a b).isLE := rfl

theorem isBefore_iff {a b : MatchScore × Nat} :
    isBefore a b = true ↔ b.1.order a.1 = .lt ∨ b.1.order a.1 = .eq ∧ a.2 ≤ b.2 := by
  rw [isBefore, Ordering.isLE_then_iff_or, Nat.isLE_compare]

/-! ### What is listed -/

/-- How well the name of a symbol fits. -/
def fit? (index : SymbolIndex) (score : String → Option MatchScore) (handle : Nat) :
    Option MatchScore := (index.name? handle).bind score

/-- The accepted symbols whose names fit are listed, each once, the better fits first and symbols of
equal fits in the order of their handles. -/
structure Ranks (index : SymbolIndex) (options : FindOptions)
    (score : String → Option MatchScore) (found : List Nat) : Prop where
  mem : ∀ handle, handle ∈ found
    ↔ index.accepts options handle = true ∧ (index.fit? score handle).isSome
  nodup : found.Nodup
  ordered : found.Pairwise fun a b => ∀ fit other, index.fit? score a = some fit →
    index.fit? score b = some other → other.order fit = .lt ∨ other.order fit = .eq ∧ a < b

/-- The accepted symbols whose names fit, in the order of their handles. -/
def scored (index : SymbolIndex) (options : FindOptions) (score : String → Option MatchScore) :
    List (MatchScore × Nat) :=
  ((List.range index.symbolCount).filter (index.accepts options)).filterMap fun handle =>
    (index.fit? score handle).map (·, handle)

theorem lt_symbolCount_of_accepts {handle : Nat} (h : index.accepts options handle = true) :
    handle < index.symbolCount := by
  rw [accepts] at h
  cases hinfo : index.info? handle with
  | none => simp [hinfo] at h
  | some info => exact (Array.getElem?_eq_some_iff.1 hinfo).1

theorem mem_scored_iff {fit : MatchScore} {handle : Nat} :
    (fit, handle) ∈ index.scored options score
      ↔ index.accepts options handle = true ∧ index.fit? score handle = some fit := by
  simp only [scored, List.mem_filterMap, List.mem_filter, List.mem_range, Option.map_eq_some_iff,
    Prod.mk.injEq]
  constructor
  · rintro ⟨_, ⟨-, haccepts⟩, _, hfit, rfl, rfl⟩
    exact ⟨haccepts, hfit⟩
  · rintro ⟨haccepts, hfit⟩
    exact ⟨handle, ⟨lt_symbolCount_of_accepts haccepts, haccepts⟩, fit, hfit, rfl, rfl⟩

theorem nodup_scored : ((index.scored options score).map (·.2)).Nodup := by
  rw [List.Nodup, List.pairwise_map, scored]
  refine List.Pairwise.filterMap _ ?_ (List.nodup_range.filter (index.accepts options))
  intro a b hne fit hfit other hother
  obtain ⟨_, -, rfl⟩ := Option.map_eq_some_iff.1 hfit
  obtain ⟨_, -, rfl⟩ := Option.map_eq_some_iff.1 hother
  exact hne

/-- Sorting the symbols that fit ranks them. -/
theorem ranks_of_perm {fits : List (MatchScore × Nat)} (h : fits.Perm (index.scored options score)) :
    index.Ranks options score ((fits.mergeSort isBefore).map (·.2)) := by
  have hsorted := (List.mergeSort_perm fits isBefore).trans h
  have hmem (fit : MatchScore) (handle : Nat) : (fit, handle) ∈ fits.mergeSort isBefore
      ↔ index.accepts options handle = true ∧ index.fit? score handle = some fit := by
    rw [hsorted.mem_iff, mem_scored_iff]
  have hnodup := (hsorted.map (·.2)).nodup_iff.2 nodup_scored
  constructor
  · intro handle
    simp only [List.mem_map, Prod.exists, hmem, exists_eq_right, Option.isSome_iff_exists,
      exists_and_left]
  · exact hnodup
  · have hbefore := pairwise_mergeSort_isLE MatchScore.listOrder fits
    rw [← isBefore_eq] at hbefore
    rw [List.pairwise_map]
    refine (hbefore.and (List.pairwise_map.1 hnodup)).imp_of_mem ?_
    rintro ⟨_, a⟩ ⟨_, b⟩ ha hb ⟨hle, hne⟩ fit other hfit hother
    obtain rfl := Option.some.inj (((hmem _ _).1 ha).2.symm.trans hfit)
    obtain rfl := Option.some.inj (((hmem _ _).1 hb).2.symm.trans hother)
    exact (isBefore_iff.1 hle).imp_right fun ⟨heq, hab⟩ => ⟨heq, Nat.lt_of_le_of_ne hab hne⟩

/-! ### Groups and single symbols -/

/-- The symbols of a group, if its name fits. -/
def scoreGroup (score : String → Option MatchScore) (group : String × List Nat) :
    List (MatchScore × Nat) := group.2.filterMap fun handle => (score group.1).map (·, handle)

theorem scoreGroups_eq (groups : List (String × List Nat)) :
    scoreGroups score groups = groups.flatMap (scoreGroup score) := by
  apply List.flatMap_congr
  rintro ⟨name, handles⟩ -
  simp only [scoreGroup]
  cases score name with
  | none => simp
  | some fit => simp

/-- Groups without accepted symbols add nothing. -/
theorem scoreGroups_filter (groups : List (String × List Nat)) :
    scoreGroups score (groups.filter fun group => !group.2.isEmpty) = scoreGroups score groups := by
  rw [scoreGroups_eq, scoreGroups_eq]
  induction groups with
  | nil => rfl
  | cons group rest ih =>
    cases hempty : group.2.isEmpty with
    | true =>
      have hnone : scoreGroup score group = [] := by
        rw [scoreGroup, List.isEmpty_iff.1 hempty]
        rfl
      rw [List.filter_cons_of_neg (by simp [hempty]), List.flatMap_cons, hnone, ih]
      rfl
    | false =>
      rw [List.filter_cons_of_pos (by simp [hempty]), List.flatMap_cons, List.flatMap_cons, ih]

theorem name_of_mem_nameGroups {group : List NameEntry} (hgroup : group ∈ index.nameGroups) :
    ∀ entry ∈ group, entry.name = (group.head?.map (·.name)).getD "" := by
  have hchain : group.IsChain fun a b : NameEntry => a.name = b.name :=
    (List.isChain_of_mem_splitBy hgroup).imp fun a b h => beq_iff_eq.1 h
  have trans : IsTrans NameEntry fun a b => a.name = b.name := ⟨fun _ _ _ => Eq.trans⟩
  cases group with
  | nil => exact fun entry h => absurd h List.not_mem_nil
  | cons first rest =>
    intro entry hentry
    rcases List.mem_cons.1 hentry with rfl | hentry
    · rfl
    · exact ((List.pairwise_cons.1 (List.isChain_iff_pairwise.1 hchain)).1 entry hentry).symm

/-- All symbols of a group are scored by its name. -/
theorem scoreGroup_acceptedGroup {group : List NameEntry} (hgroup : group ∈ index.nameGroups) :
    scoreGroup score (index.acceptedGroup options group)
      = ((group.flatMap index.entryHandles).filter fun named =>
          index.accepts options named.2).filterMap fun named =>
            (score named.1).map (·, named.2) := by
  have hnames : group.flatMap index.entryHandles
      = (group.flatMap fun entry => index.symbolsOf entry.node).map
          ((group.head?.map (·.name)).getD "", ·) := by
    rw [List.map_flatMap]
    apply List.flatMap_congr
    intro entry hentry
    rw [entryHandles, name_of_mem_nameGroups hgroup entry hentry]
  rw [hnames, List.filter_map, List.filterMap_map]
  rfl

/-- What the groups list is what all symbols would list one by one. -/
theorem scoreGroups_acceptedGroups :
    scoreGroups score (index.acceptedGroups options)
      = (index.namedHandles.filter fun named => index.accepts options named.2).filterMap
          fun named => (score named.1).map (·, named.2) := by
  have hnames : index.table.names.toList = index.nameGroups.flatMap id := by
    rw [List.flatMap_id, nameGroups, List.flatten_splitBy]
  rw [acceptedGroups_eq, scoreGroups_filter, scoreGroups_eq, List.flatMap_map, namedHandles, hnames,
    List.flatMap_assoc, List.filter_flatMap, List.filterMap_flatMap]
  exact List.flatMap_congr fun group hgroup => scoreGroup_acceptedGroup hgroup

theorem scoreGroups_perm :
    (scoreGroups score (index.acceptedGroups options)).Perm (index.scored options score) := by
  have h := (index.namedHandles_perm.filter fun named => index.accepts options named.2).filterMap
    fun named => (score named.1).map (·, named.2)
  rw [List.filter_map, List.filterMap_map] at h
  rw [scoreGroups_acceptedGroups]
  refine h.trans (List.Perm.of_eq (List.filterMap_congr fun handle hhandle => ?_))
  have hlt := lt_symbolCount_of_accepts (List.mem_filter.1 hhandle).2
  have hname : index.name? handle = some ((index.name? handle).getD "") := by
    rw [name?, info?, Array.getElem?_eq_getElem hlt]
    rfl
  rw [fit?, hname]
  rfl

/-! ### Searches -/

/-- The symbols that fit in the order in which a search lists them. -/
def listed (index : SymbolIndex) (options : FindOptions) (score : String → Option MatchScore) :
    List Nat :=
  ((scoreGroups score (index.acceptedGroups options)).mergeSort isBefore).map (·.2)

theorem ranks_listed : index.Ranks options score (index.listed options score) :=
  ranks_of_perm scoreGroups_perm

/-- Some accepted symbol has a name that fits. -/
def AnyFits (index : SymbolIndex) (options : FindOptions) (score : String → Option MatchScore) :
    Prop := ∃ handle, index.accepts options handle = true ∧ (index.fit? score handle).isSome

theorem listed_eq_nil (h : ¬ index.AnyFits options score) : index.listed options score = [] :=
  List.eq_nil_iff_forall_not_mem.2 fun handle hmem => h ⟨handle, (ranks_listed.mem handle).1 hmem⟩

theorem isEmpty_scoreGroups_iff :
    (scoreGroups score (index.acceptedGroups options)).isEmpty = true
      ↔ ¬ index.AnyFits options score := by
  rw [scoreGroups_perm.isEmpty_eq, List.isEmpty_iff, List.eq_nil_iff_forall_not_mem]
  constructor
  · rintro hnone ⟨handle, haccepts, hfit⟩
    obtain ⟨fit, hfit⟩ := Option.isSome_iff_exists.1 hfit
    exact hnone (fit, handle) (mem_scored_iff.2 ⟨haccepts, hfit⟩)
  · rintro hnone ⟨fit, handle⟩ hmem
    obtain ⟨haccepts, hfit⟩ := mem_scored_iff.1 hmem
    exact hnone ⟨handle, haccepts, Option.isSome_iff_exists.2 ⟨fit, hfit⟩⟩

/-- Edits are forgiven if this is asked for and the pattern is long enough and all letters. -/
def ForgivesEdits (options : FindOptions) (pattern : Pattern) : Prop :=
  options.editFallback = true ∧ 3 ≤ pattern.bytes.length
    ∧ ∀ b ∈ pattern.bytes, Pattern.isLetter b = true

theorem supportsEditDistance_iff {pattern : Pattern} : pattern.supportsEditDistance = true
    ↔ 3 ≤ pattern.bytes.length ∧ ∀ b ∈ pattern.bytes, Pattern.isLetter b = true := by
  have hthreshold : (Pattern.editThreshold pattern.bytes.length).isSome = true
      ↔ 3 ≤ pattern.bytes.length := by
    rw [Pattern.editThreshold]
    split
    · simp [*]
    · split <;> simp <;> omega
  rw [Pattern.supportsEditDistance, Bool.and_eq_true, hthreshold, List.all_eq_true]

theorem not_anyFits_scoreEdits {pattern : Pattern} (h : pattern.supportsEditDistance = false) :
    ¬ index.AnyFits options pattern.scoreEdits := by
  rintro ⟨handle, -, hfit⟩
  have hnone (name : String) : pattern.scoreEdits name = none := by
    rw [Pattern.scoreEdits, h]
    rfl
  cases hname : index.name? handle with
  | none => simp [fit?, hname] at hfit
  | some name => simp [fit?, hname, hnone] at hfit

theorem find_fuzzy_eq {text : String} (htext : Text.isBlank text = false)
    (hfilter : options.filter.isEmpty = false) {pattern : Pattern}
    (hpattern : pattern = ⟨Text.trim text⟩) :
    index.find (.named (.fuzzy text)) options
      = if (scoreGroups pattern.score (index.acceptedGroups options)).isEmpty
            && options.editFallback then
          index.listed options pattern.scoreEdits
        else index.listed options pattern.score := by
  have hblank : (Query.named (.fuzzy text)).isBlank = false := htext
  have hofText : Pattern.ofText? text = some pattern := by
    rw [Pattern.ofText?, htext, hpattern]
    rfl
  rw [find, hfilter, hblank]
  change index.findByPattern text options = _
  rw [findByPattern, hofText]
  change (List.mergeSort (if _ then _ else _) isBefore).map _ = _
  split
  · rfl
  · rfl

/-- A search for a pattern that is not blank lists the accepted symbols whose names fit. If there is
none, it lists those whose names are a few edits away, where edits are forgiven. -/
theorem find_fuzzy_ranks (index : SymbolIndex) (text : String) (options : FindOptions)
    (htext : Text.isBlank text = false) (hfilter : options.filter.isEmpty = false) :
    let pattern : Pattern := ⟨Text.trim text⟩
    let found := index.find (.named (.fuzzy text)) options
    (index.AnyFits options pattern.score → index.Ranks options pattern.score found)
    ∧ (¬ index.AnyFits options pattern.score → ForgivesEdits options pattern →
      index.Ranks options pattern.scoreEdits found)
    ∧ (¬ index.AnyFits options pattern.score → ¬ ForgivesEdits options pattern → found = []) := by
  intro pattern found
  have hfound : found = _ := find_fuzzy_eq htext hfilter rfl
  have hedits : ((scoreGroups pattern.score (index.acceptedGroups options)).isEmpty
      && options.editFallback) = true
      ↔ ¬ index.AnyFits options pattern.score ∧ options.editFallback = true := by
    rw [Bool.and_eq_true, isEmpty_scoreGroups_iff]
  refine ⟨fun hany => ?_, fun hnone hforgives => ?_, fun hnone hforgives => ?_⟩
  · rw [hfound, if_neg fun h => (hedits.1 h).1 hany]
    exact ranks_listed
  · rw [hfound, if_pos (hedits.2 ⟨hnone, hforgives.1⟩)]
    exact ranks_listed
  · rw [hfound]
    by_cases hfallback : options.editFallback = true
    · rw [if_pos (hedits.2 ⟨hnone, hfallback⟩)]
      apply listed_eq_nil
      apply not_anyFits_scoreEdits
      exact Bool.eq_false_iff.2 fun h => hforgives ⟨hfallback, supportsEditDistance_iff.1 h⟩
    · rw [if_neg fun h => hfallback (hedits.1 h).2]
      exact listed_eq_nil hnone

/-- A namespace that is not asked for does not keep a search for classes from forgiving a typo. -/
theorem find_fuzzy_of_typo :
    let declarations : List Declaration :=
      [.ofName .namespaceDecl "Redder", .ofName .classDecl "Reader"]
    let index := build { info := Sample.project 1 declarations }
    let options : FindOptions := { filter := .ofCategory .types }
    let pattern : Pattern := ⟨Text.trim " Redder"⟩
    Text.isBlank " Redder" = false ∧ options.filter.isEmpty = false
      ∧ index.fit? pattern.score 0 = some ⟨.exact, 6⟩
      ∧ index.Ranks options pattern.scoreEdits (index.find (.named (.fuzzy " Redder")) options)
      ∧ 1 ∈ index.find (.named (.fuzzy " Redder")) options := by
  intro declarations index options pattern
  have htext : Text.isBlank " Redder" = false := by decide +kernel
  have hfilter : options.filter.isEmpty = false := by decide
  have hnone : ¬ index.AnyFits options pattern.score := by
    have hall : ∀ handle < index.symbolCount, index.accepts options handle = true →
        ¬ (index.fit? pattern.score handle).isSome := by decide +kernel
    rintro ⟨handle, haccepts, hfit⟩
    exact hall handle (lt_symbolCount_of_accepts haccepts) haccepts hfit
  have hforgives : ForgivesEdits options pattern := ⟨rfl, by decide +kernel, by decide +kernel⟩
  have hranks := (find_fuzzy_ranks index " Redder" options htext hfilter).2.1 hnone hforgives
  exact ⟨htext, hfilter, by decide +kernel, hranks, (hranks.mem 1).2 (by decide +kernel)⟩

end SymbolIndex

end SymbolSearch
