import SymbolSearch.Proofs.Codec.Reader
import SymbolSearch.Proofs.Find.ByName
import SymbolSearch.Proofs.Find.ByPattern
import SymbolSearch.Proofs.Merge.Effective
import SymbolSearch.Proofs.Pattern.Tiers

/-!
# Finding by a full name

A search for a pattern that is a whole name lists the symbols of this very name before all others.
No other name fits as well, and symbols of equal fits are listed in the order of their handles, as
a look-up by name lists them.
-/

namespace SymbolSearch

/-- A list in which nothing else stands before an item of a kind begins with all its items of that
kind. -/
theorem filter_prefix_of_pairwise {α : Type} {p : α → Bool} {items : List α}
    (h : items.Pairwise fun a b => p b = true → p a = true) : items.filter p <+: items := by
  induction items with
  | nil => exact List.prefix_rfl
  | cons a rest ih =>
    obtain ⟨ha, hrest⟩ := List.pairwise_cons.1 h
    by_cases hp : p a = true
    · rw [List.filter_cons_of_pos hp]
      exact (List.prefix_cons_inj a).2 (ih hrest)
    · have hnone : rest.filter p = [] := by
        rw [List.filter_eq_nil_iff]
        exact fun b hb hpb => hp (ha b hb hpb)
      rw [List.filter_cons_of_neg hp, hnone]
      exact List.nil_prefix

theorem eq_of_pairwise_lt {handles others : List Nat} (h : handles.Pairwise (· < ·))
    (hothers : others.Pairwise (· < ·)) (hmem : ∀ handle, handle ∈ handles ↔ handle ∈ others) :
    handles = others := by
  have hperm : handles.Perm others :=
    (List.perm_ext_iff_of_nodup (h.imp Nat.ne_of_lt) (hothers.imp Nat.ne_of_lt)).2 hmem
  exact hperm.eq_of_pairwise' h hothers

namespace SymbolIndex

variable {index : SymbolIndex} {options : FindOptions} {pattern : Pattern} {handle other : Nat}

/-- The symbol has the whole pattern as its name. -/
def hasName (index : SymbolIndex) (pattern : Pattern) (handle : Nat) : Bool :=
  index.name? handle == some pattern.text

theorem hasName_iff : index.hasName pattern handle = true
    ↔ index.name? handle = some pattern.text := beq_iff_eq

theorem fit?_of_hasName (h : index.hasName pattern handle = true) :
    index.fit? pattern.score handle = some ⟨.exact, pattern.bytes.length⟩ := by
  rw [fit?, hasName_iff.1 h]
  exact Pattern.scoreBytes_self pattern.bytes

/-- A symbol that fits as well as one that has the name has the name too. -/
theorem hasName_or_order {fit : MatchScore} (hfit : index.fit? pattern.score handle = some fit) :
    index.hasName pattern handle = true
      ∨ MatchScore.order ⟨.exact, pattern.bytes.length⟩ fit = .gt := by
  obtain ⟨name, hname, hscore⟩ := Option.bind_eq_some_iff.1 hfit
  rcases Pattern.order_exact hscore with heq | hgt
  · have htext : name = pattern.text := Bytes.ofString_injective heq
    exact .inl (hasName_iff.2 (htext ▸ hname))
  · exact .inr hgt

/-- Before a symbol that has the name, only symbols that have it too and have smaller handles are
listed. -/
theorem Ranks.pairwise_hasName {found : List Nat} (h : index.Ranks options pattern.score found) :
    found.Pairwise fun a b => index.hasName pattern b = true →
      index.hasName pattern a = true ∧ a < b := by
  refine h.ordered.imp_of_mem fun {a b} ha _ hordered hb => ?_
  obtain ⟨fit, hfit⟩ := Option.isSome_iff_exists.1 ((h.mem a).1 ha).2
  have hbefore := hordered fit _ hfit (fit?_of_hasName hb)
  rcases hasName_or_order hfit with hname | hgt
  · refine ⟨hname, ?_⟩
    rw [fit?_of_hasName hname, Option.some_inj] at hfit
    subst hfit
    rcases hbefore with hlt | ⟨-, hab⟩
    · simp [MatchScore.order] at hlt
    · exact hab
  · simp [hgt] at hbefore

/-- Those that have the name are listed in the order of their handles. -/
theorem Ranks.pairwise_filter {found : List Nat} (h : index.Ranks options pattern.score found) :
    (found.filter (index.hasName pattern)).Pairwise (· < ·) := by
  refine (h.pairwise_hasName.filter (index.hasName pattern)).imp_of_mem ?_
  intro a b _ hb hbefore
  exact (hbefore (List.mem_filter.1 hb).2).2

/-! ### Look-ups -/

theorem find_eq_nil (index : SymbolIndex) (query : Query) (h : options.filter.isEmpty = true) :
    index.find query options = [] := by
  unfold find
  rw [h]
  rfl

theorem find_exact_eq {name : String} (hblank : Text.isBlank name = false)
    (hfilter : options.filter.isEmpty = false) :
    index.find (.named (.exact name)) options
      = index.findByPredicate (fun other => other == name) options := by
  have hquery : (Query.named (.exact name)).isBlank = false := hblank
  rw [find, hfilter, hquery, ← isNamed_false, ← findByName_eq]
  rfl

theorem mem_findByPredicate_name {name : String} :
    handle ∈ index.findByPredicate (fun other => other == name) options
      ↔ index.accepts options handle = true ∧ index.hasName ⟨name⟩ handle = true := by
  simp only [findByPredicate, List.mem_filter, List.mem_range, hasName_iff, beq_iff_eq]
  constructor
  · rintro ⟨⟨hlt, haccepts⟩, hname⟩
    refine ⟨haccepts, ?_⟩
    rw [name?, info?, Array.getElem?_eq_getElem hlt] at hname ⊢
    exact congrArg some hname
  · rintro ⟨haccepts, hname⟩
    exact ⟨⟨lt_symbolCount_of_accepts haccepts, haccepts⟩, by rw [hname]; rfl⟩

theorem isSome_fit?_of_hasName (h : index.hasName pattern handle = true) :
    (index.fit? pattern.score handle).isSome = true := by
  rw [fit?_of_hasName h]
  rfl

/-- Of the ranked symbols, those that have the name are those that a scan for the name finds. -/
theorem Ranks.filter_hasName {name : String} {found : List Nat}
    (h : index.Ranks options (Pattern.score ⟨name⟩) found) :
    found.filter (index.hasName ⟨name⟩)
      = index.findByPredicate (fun other => other == name) options := by
  apply eq_of_pairwise_lt h.pairwise_filter (index.pairwise_findByPredicate _ options)
  intro handle
  rw [mem_findByPredicate_name, List.mem_filter, h.mem]
  constructor
  · rintro ⟨⟨haccepts, -⟩, hname⟩
    exact ⟨haccepts, hname⟩
  · rintro ⟨haccepts, hname⟩
    exact ⟨⟨haccepts, isSome_fit?_of_hasName hname⟩, hname⟩

theorem Ranks.begins {name : String} {found : List Nat}
    (h : index.Ranks options (Pattern.score ⟨name⟩) found) :
    index.findByPredicate (fun other => other == name) options <+: found := by
  rw [← h.filter_hasName]
  exact filter_prefix_of_pairwise (h.pairwise_hasName.imp fun h hb => (h hb).1)

theorem findByPredicate_eq_nil {name : String}
    (h : ¬ index.AnyFits options (Pattern.score ⟨name⟩)) :
    index.findByPredicate (fun other => other == name) options = [] := by
  apply List.eq_nil_iff_forall_not_mem.2
  intro handle hhandle
  obtain ⟨haccepts, hname⟩ := mem_findByPredicate_name.1 hhandle
  exact h ⟨handle, haccepts, isSome_fit?_of_hasName hname⟩

/-- What is found are symbols that fit the pattern, if there are any. -/
theorem exists_ranks_fuzzy {name : String} (hblank : Text.isBlank name = false)
    (hfilter : options.filter.isEmpty = false) (htrim : Text.trim name = name) :
    ∃ score, index.Ranks options score (index.find (.named (.fuzzy name)) options)
      ∧ (index.AnyFits options (Pattern.score ⟨name⟩) → score = Pattern.score ⟨name⟩) := by
  have hfound := @find_fuzzy_eq index options name hblank hfilter ⟨name⟩ (by rw [htrim])
  split at hfound
  · rename_i hnone
    refine ⟨_, hfound ▸ ranks_listed, fun hany => ?_⟩
    exact absurd hany (isEmpty_scoreGroups_iff.1 (Bool.and_eq_true_iff.1 hnone).1)
  · exact ⟨_, hfound ▸ ranks_listed, fun _ => rfl⟩

/-- A search for a full name begins with what a look-up finds, which are the symbols of this very
name in the order of their handles. -/
theorem find_exact_prefix_fuzzy (index : SymbolIndex) (name : String) (options : FindOptions)
    (htrim : Text.trim name = name) (hne : name ≠ "") :
    let exact := index.find (.named (.exact name)) options
    let fuzzy := index.find (.named (.fuzzy name)) options
    exact <+: fuzzy ∧ exact.Pairwise (· < ·)
      ∧ ∀ handle ∈ fuzzy, handle ∈ exact ↔ index.name? handle = some name := by
  intro exact fuzzy
  cases hfilter : options.filter.isEmpty with
  | true =>
    have hexact : exact = [] := index.find_eq_nil _ hfilter
    have hfuzzy : fuzzy = [] := index.find_eq_nil _ hfilter
    rw [hexact, hfuzzy]
    exact ⟨List.nil_prefix, .nil, by simp⟩
  | false =>
    have hblank : Text.isBlank name = false := by
      apply Bool.eq_false_iff.2
      intro hblank
      exact hne (htrim ▸ Text.trim_eq_empty_iff.2 hblank)
    have hexact : exact = _ := find_exact_eq hblank hfilter
    obtain ⟨score, hranks, hscore⟩ :=
      @exists_ranks_fuzzy index options name hblank hfilter htrim
    rw [hexact]
    refine ⟨?_, index.pairwise_findByPredicate _ options, fun handle hhandle => ?_⟩
    · by_cases hany : index.AnyFits options (Pattern.score ⟨name⟩)
      · obtain rfl := hscore hany
        exact hranks.begins
      · rw [findByPredicate_eq_nil hany]
        exact List.nil_prefix
    · rw [mem_findByPredicate_name, hasName_iff]
      exact ⟨fun h => h.2, fun h => ⟨((hranks.mem handle).1 hhandle).1, h⟩⟩

/-- The class of the very name comes first although one of the same letters has a smaller handle. -/
theorem find_exact_prefix_fuzzy_of_case_variants :
    let classes := ["READER", "Reader", "ReaderPool"].map (Declaration.ofName .classDecl)
    let index := build { info := Sample.project 1 classes }
    Text.trim "Reader" = "Reader" ∧ "Reader" ≠ ""
      ∧ index.find (.named (.exact "Reader")) {} = [1]
      ∧ [1] <+: index.find (.named (.fuzzy "Reader")) {}
      ∧ 0 ∈ index.find (.named (.fuzzy "Reader")) {} := by
  intro classes index
  have htrim : Text.trim "Reader" = "Reader" := by decide +kernel
  have hne : "Reader" ≠ "" := by decide +kernel
  have hblank : Text.isBlank "Reader" = false := by decide +kernel
  have hexact : index.find (.named (.exact "Reader")) {} = [1] := by
    rw [find_exact_eq hblank (by decide)]
    decide +kernel
  obtain ⟨hbegins, -, -⟩ := find_exact_prefix_fuzzy index "Reader" {} htrim hne
  obtain ⟨score, hranks, hscore⟩ := @exists_ranks_fuzzy index {} "Reader" hblank (by decide) htrim
  have hfits : index.accepts {} 0 = true
      ∧ (index.fit? (Pattern.score ⟨"Reader"⟩) 0).isSome = true := by decide +kernel
  obtain rfl := hscore ⟨0, hfits⟩
  refine ⟨htrim, hne, hexact, ?_, (hranks.mem 0).2 hfits⟩
  rw [hexact] at hbegins
  exact hbegins

end SymbolIndex

end SymbolSearch
