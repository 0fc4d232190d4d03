import Mathlib.Data.List.Sort
import SymbolSearch.Project.Sample
import SymbolSearch.Proofs.Table.Names

/-!
# Finding by name

Looking a name up among the ordered names finds what a scan of all symbols finds. Nothing is used of
the lowercase form of a text but that it is a function of the text.
-/

namespace SymbolSearch.SymbolIndex

/-- The symbols under the names that a predicate holds of. -/
theorem flatMap_symbolsOf_filter (index : SymbolIndex) {p : NameEntry → Bool}
    {holds : String → Bool} {entries : List NameEntry}
    (h : ∀ entry ∈ entries, p entry = holds entry.name) :
    ((entries.filter p).map (·.node)).flatMap index.symbolsOf
      = ((entries.flatMap index.entryHandles).filter fun named => holds named.1).map (·.2) := by
  induction entries with
  | nil => rfl
  | cons entry rest ih =>
    have hrest := ih fun other hother => h other (List.mem_cons_of_mem _ hother)
    rw [List.flatMap_cons, List.filter_append, List.map_append, ← hrest, entryHandles,
      List.filter_map, Function.comp_def]
    by_cases hholds : holds entry.name = true
    · have hp : p entry = true := by rw [h entry List.mem_cons_self, hholds]
      simp [List.filter_cons_of_pos hp, hholds, Function.comp_def]
    · have hp : ¬ p entry = true := by rw [h entry List.mem_cons_self]; exact hholds
      simp [List.filter_cons_of_neg hp, hholds]

theorem mergeSort_eq_of_perm {handles sorted : List Nat} (h : handles.Perm sorted)
    (hsorted : sorted.Pairwise (· < ·)) : handles.mergeSort (· ≤ ·) = sorted := by
  have hperm := (List.mergeSort_perm handles (· ≤ ·)).trans h
  exact hperm.eq_of_pairwise' (List.pairwise_mergeSort' (· ≤ ·) handles)
    (hsorted.imp Nat.le_of_lt)

theorem pairwise_findByPredicate (index : SymbolIndex) (holds : String → Bool)
    (options : FindOptions) : (index.findByPredicate holds options).Pairwise (· < ·) :=
  (List.pairwise_lt_range.filter _).filter _

/-- The names that a look-up for `name` is about: those of its lowercase form, or only itself. -/
def isNamed (name : String) (ignoreCase : Bool) (other : String) : Bool :=
  Text.lowercase other == Text.lowercase name && (ignoreCase || other == name)

/-- A look-up by name is a scan for the names that it is about. -/
theorem findByName_eq (index : SymbolIndex) (name : String) (ignoreCase : Bool)
    (options : FindOptions) : index.findByName name ignoreCase options
      = index.findByPredicate (isNamed name ignoreCase) options := by
  have hentries : ∀ entry ∈ index.table.names.toList,
      ((ignoreCase || entry.name == name) && entry.folded == Text.lowercase name)
        = isNamed name ignoreCase entry.name := by
    intro entry hentry
    obtain ⟨place, -, rfl⟩ := mem_names_iff.1 hentry
    exact Bool.and_comm _ _
  have hperm := (index.filter_namedHandles_perm (isNamed name ignoreCase)).filter
    (index.accepts options)
  apply mergeSort_eq_of_perm _ (index.pairwise_findByPredicate _ options)
  rw [foldedRange_eq, List.filter_filter, index.flatMap_symbolsOf_filter hentries,
    findByPredicate, List.filter_comm]
  exact hperm

theorem isNamed_false (name : String) : isNamed name false = fun other => other == name := by
  funext other
  by_cases h : other = name
  · simp [isNamed, h]
  · simp [isNamed, h]

end SymbolSearch.SymbolIndex
