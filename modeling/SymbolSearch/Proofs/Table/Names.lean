import Mathlib.Data.List.Perm.Basic
import SymbolSearch.Proofs.Table.Tree

/-!
# Ordered names

The names of an index are those of its nodes but the root, in order. What stands under one
lowercase form is one run of them, which binary search finds. Through the names one comes to every
symbol exactly once.
-/

namespace SymbolSearch

/-! ### The order of names -/

theorem NameEntry.order_eq : NameEntry.order = compareLex
    (compareLex (compareOn (·.folded)) (compareOn (·.name))) (compareOn (·.node)) := rfl

instance : Std.TransCmp NameEntry.order := by
  rw [NameEntry.order_eq]
  infer_instance

theorem Text.le_of_isLE_compare {a b : String} (h : (compare a b).isLE = true) : a ≤ b :=
  (isLE_compareOfLessAndEq String.le_antisymm String.not_le String.le_total).1 h

theorem NameEntry.folded_le {a b : NameEntry} (h : (a.order b).isLE = true) :
    a.folded ≤ b.folded := by
  apply Text.le_of_isLE_compare
  rw [NameEntry.order, Ordering.isLE_then_iff_and, Ordering.isLE_then_iff_and] at h
  exact h.1.1

/-! ### Searching in order -/

theorem pairwise_mergeSort_isLE {α : Type} (cmp : α → α → Ordering) [Std.TransCmp cmp]
    (items : List α) :
    (items.mergeSort fun a b => (cmp a b).isLE).Pairwise fun a b => (cmp a b).isLE = true := by
  apply List.pairwise_mergeSort
  · exact fun a b c => Std.TransCmp.isLE_trans
  · intro a b
    have hswap : cmp b a = (cmp a b).swap := Std.OrientedCmp.eq_swap
    rw [hswap]
    cases cmp a b <;> rfl

theorem lowerBound_le {below : Nat → Bool} {low high : Nat} (hle : low ≤ high) :
    lowerBound below low high ≤ high := by
  fun_induction lowerBound below low high with
  | case1 low high hlt middle hbelow ih => exact ih (by omega)
  | case2 low high hlt middle hbelow ih => exact Nat.le_trans (ih (by omega)) (by omega)
  | case3 low high hlt => exact hle

/-- The numbers in front of the one that is found are below, all others are not. -/
theorem lowerBound_spec {below : Nat → Bool} {low high : Nat}
    (down : ∀ i j, i ≤ j → j < high → below j = true → below i = true) :
    (∀ i, low ≤ i → i < lowerBound below low high → below i = true)
      ∧ ∀ i, lowerBound below low high ≤ i → i < high → below i = false := by
  fun_induction lowerBound below low high with
  | case1 low high hlt middle hbelow ih =>
    obtain ⟨hfront, hback⟩ := ih down
    refine ⟨fun i hi hlt => ?_, hback⟩
    by_cases hmiddle : i ≤ middle
    · exact down i middle hmiddle (by omega) hbelow
    · exact hfront i (by omega) hlt
  | case2 low high hlt middle hbelow ih =>
    obtain ⟨hfront, hback⟩ := ih fun i j hij hj => down i j hij (by omega)
    refine ⟨hfront, fun i hi hlt => ?_⟩
    by_cases hmiddle : i < middle
    · exact hback i hi hmiddle
    · exact Bool.eq_false_iff.2 fun h => hbelow (down middle i (by omega) hlt h)
  | case3 low high hlt => exact ⟨fun i hi hlt => by omega, fun i hi hlt => by omega⟩

/-- If the items that satisfy `p` come first, they are the first ones that do. -/
theorem takeWhile_eq_filter {α : Type} {p : α → Bool} {items : List α}
    (h : items.Pairwise fun a b => p b = true → p a = true) : items.takeWhile p = items.filter p := by
  induction items with
  | nil => rfl
  | cons a rest ih =>
    obtain ⟨hfirst, hrest⟩ := List.pairwise_cons.1 h
    by_cases ha : p a = true
    · rw [List.takeWhile_cons_of_pos ha, List.filter_cons_of_pos ha, ih hrest]
    · rw [List.takeWhile_cons_of_neg ha, List.filter_cons_of_neg ha]
      refine (List.filter_eq_nil_iff.2 fun b hb hpb => ?_).symm
      exact ha (hfirst b hb hpb)

/-- Among ordered entries, those of one lowercase form are the run at which binary search ends. -/
theorem NameEntry.run_eq_filter {entries : List NameEntry} {folded : String} {below : Nat → Bool}
    (sorted : entries.Pairwise fun a b => a.folded ≤ b.folded)
    (hbelow : ∀ i (hi : i < entries.length), below i = decide (entries[i].folded < folded)) :
    (entries.drop (lowerBound below 0 entries.length)).takeWhile (·.folded == folded)
      = entries.filter (·.folded == folded) := by
  have down (i j : Nat) (hij : i ≤ j) (hj : j < entries.length) (h : below j = true) :
      below i = true := by
    have hi : i < entries.length := Nat.lt_of_le_of_lt hij hj
    rw [hbelow j hj] at h
    rw [hbelow i hi]
    rcases Nat.eq_or_lt_of_le hij with rfl | hlt
    · exact h
    · have hle := List.pairwise_iff_getElem.1 sorted i j hi hj hlt
      apply decide_eq_true
      rw [← String.not_le]
      intro hge
      exact String.not_le.2 (of_decide_eq_true h) (String.le_trans hge hle)
  obtain ⟨hfront, hback⟩ := @lowerBound_spec below 0 entries.length down
  generalize lowerBound below 0 entries.length = start at hfront hback
  have hnone : (entries.take start).filter (·.folded == folded) = [] := by
    apply List.filter_eq_nil_iff.2
    intro entry hentry heq
    obtain ⟨i, hi, rfl⟩ := List.mem_take_iff_getElem.1 hentry
    have hlt := hfront i (Nat.zero_le i) (by omega)
    rw [hbelow i (by omega), decide_eq_true_eq, beq_iff_eq.1 heq] at hlt
    exact String.lt_irrefl folded hlt
  have hfrom : ∀ entry ∈ entries.drop start, folded ≤ entry.folded := by
    intro entry hentry
    obtain ⟨i, hi, rfl⟩ := List.mem_drop_iff_getElem.1 hentry
    have hge := hback (start + i) (Nat.le_add_right _ _) (by omega)
    rw [hbelow _ (by omega), decide_eq_false_iff_not] at hge
    exact String.not_lt.1 hge
  rw [takeWhile_eq_filter]
  · conv_rhs => rw [← List.take_append_drop start entries]
    rw [List.filter_append, hnone, List.nil_append]
  · apply (sorted.drop).imp_of_mem
    intro a b ha hb hab heq
    rw [beq_iff_eq] at heq ⊢
    exact String.le_antisymm (heq ▸ hab) (hfrom a ha)

namespace SymbolIndex

variable {index : SymbolIndex}

/-! ### The names of places -/

def nameEntry (place : Place) : NameEntry :=
  ⟨Text.lowercase place.node.name, place.node.name, place.id⟩

theorem names_eq (index : SymbolIndex) : index.table.names.toList
    = (index.places.map nameEntry).mergeSort fun a b => (a.order b).isLE := by
  have hrows := SymbolNode.zipIdx_rowsAll .root 1 0 index.forest
  simp only [index.table_eq, IndexTable.ofForest, IndexTable.sortedNames, List.zipIdx_cons,
    List.drop_succ_cons, List.drop_zero]
  change (((SymbolNode.rowsAll Surroundings.root.node 1 0 index.forest).zipIdx 1).map _).mergeSort _
    = _
  rw [hrows, List.map_map]
  rfl

theorem names_perm (index : SymbolIndex) :
    index.table.names.toList.Perm (index.places.map nameEntry) := by
  rw [names_eq]
  exact List.mergeSort_perm _ _

theorem names_pairwise (index : SymbolIndex) :
    index.table.names.toList.Pairwise fun a b => (a.order b).isLE = true := by
  rw [names_eq]
  exact pairwise_mergeSort_isLE NameEntry.order _

theorem mem_names_iff {entry : NameEntry} :
    entry ∈ index.table.names.toList ↔ ∃ place ∈ index.places, nameEntry place = entry := by
  rw [index.names_perm.mem_iff, List.mem_map]

/-- The run of a lowercase form holds all names that have it. -/
theorem foldedRange_eq (index : SymbolIndex) (folded : String) :
    index.foldedRange folded = index.table.names.toList.filter (·.folded == folded) := by
  rw [foldedRange, ← Array.length_toList]
  apply NameEntry.run_eq_filter (index.names_pairwise.imp NameEntry.folded_le)
  intro i hi
  have h : index.table.names[i]? = some index.table.names.toList[i] := by
    rw [← Array.getElem?_toList, List.getElem?_eq_getElem hi]
  rw [h]
  rfl

/-! ### Groups of one name -/

def nameGroups (index : SymbolIndex) : List (List NameEntry) :=
  index.table.names.toList.splitBy fun a b => a.name == b.name

/-- The accepted symbols of a group of entries, under the name of the first one. -/
def acceptedGroup (index : SymbolIndex) (options : FindOptions) (group : List NameEntry) :
    String × List Nat :=
  ((group.head?.map (·.name)).getD "",
    (group.flatMap fun entry => index.symbolsOf entry.node).filter (index.accepts options))

theorem acceptedGroups_eq (index : SymbolIndex) (options : FindOptions) :
    index.acceptedGroups options
      = (index.nameGroups.map (index.acceptedGroup options)).filter fun group =>
          !group.2.isEmpty := by
  rw [← List.filterMap_eq_filter, List.filterMap_map]
  apply List.filterMap_congr
  rintro (_ | ⟨entry, rest⟩) -
  · rfl
  · by_cases hempty : (index.acceptedGroup options (entry :: rest)).2.isEmpty = true
    · rw [Function.comp_apply, Option.guard, hempty]
      exact if_pos hempty
    · rw [Function.comp_apply, Option.guard, Bool.eq_false_iff.2 hempty]
      exact if_neg hempty

/-! ### The symbols of the names -/

/-- The symbols of an entry under its name. -/
def entryHandles (index : SymbolIndex) (entry : NameEntry) : List (String × Nat) :=
  (index.symbolsOf entry.node).map (entry.name, ·)

/-- All symbols under their names, in the order of the names. -/
def namedHandles (index : SymbolIndex) : List (String × Nat) :=
  index.table.names.toList.flatMap index.entryHandles

theorem name?_of_mem_symbols {place : Place} (hplace : place ∈ index.places) {handle : Nat}
    (h : handle ∈ place.row.symbols) : index.name? handle = some place.node.name := by
  rw [← symbolsOf_of_mem_places hplace] at h
  obtain ⟨info, hinfo, hnode⟩ := exists_info?_of_mem_symbolsOf h
  rw [name?, hinfo, Option.map_some, hnode, index.nodeName_of_mem_places hplace]

/-- Every symbol stands under its name, once. -/
theorem namedHandles_perm (index : SymbolIndex) :
    index.namedHandles.Perm ((List.range index.symbolCount).map fun handle =>
      ((index.name? handle).getD "", handle)) := by
  have hplaces : (index.places.map nameEntry).flatMap index.entryHandles
      = (List.range index.symbolCount).map fun handle =>
        ((index.name? handle).getD "", handle) := by
    rw [← flatMap_symbols, List.map_flatMap, List.flatMap_map]
    apply List.flatMap_congr
    intro place hplace
    rw [nameEntry, entryHandles, symbolsOf_of_mem_places hplace]
    apply List.map_congr_left
    intro handle hhandle
    rw [name?_of_mem_symbols hplace hhandle, Option.getD_some]
  rw [← hplaces]
  exact index.names_perm.flatMap_right _

/-- The symbols under the names that a predicate holds of are those that a scan finds. -/
theorem filter_namedHandles_perm (index : SymbolIndex) (holds : String → Bool) :
    ((index.namedHandles.filter fun named => holds named.1).map (·.2)).Perm
      ((List.range index.symbolCount).filter fun handle =>
        holds ((index.name? handle).getD "")) := by
  have h := (index.namedHandles_perm.filter fun named => holds named.1).map (·.2)
  rw [List.filter_map (f := fun handle => ((index.name? handle).getD "", handle)), List.map_map,
    Function.comp_def, Function.comp_def, List.map_id'] at h
  exact h

end SymbolIndex

end SymbolSearch
