import SymbolSearch.Index.Find
import SymbolSearch.Proofs.Merge.Built

/-!
# Indexes as trees

What the numbers that an index stores mean. Children and parents point at each other, and going
from child to child visits all nodes in the order in which they are stored. Every symbol stands on
one node, in the same order, and what contains it stands on the parent of this node.
-/

namespace SymbolSearch

/-- The second list visits the nodes of the first one after the other, each of them followed by all
that is below it. -/
inductive Visits (children : Nat → List Nat) : List Nat → List Nat → Prop
  | nil : Visits children [] []
  | cons {id : Nat} {ids below after : List Nat} :
    Visits children (children id) below → Visits children ids after →
    Visits children (id :: ids) (id :: (below ++ after))

namespace SymbolIndex

def childrenOf (index : SymbolIndex) (id : Nat) : List Nat :=
  ((index.node? id).map (·.children)).getD []

def parentOf? (index : SymbolIndex) (id : Nat) : Option Nat := (index.node? id).bind (·.parent)

/-- The stored numbers describe a tree of named nodes, with the symbols on them. -/
structure IsTree (index : SymbolIndex) : Prop where
  root : ∃ children, index.node? 0 = some ⟨"", none, children, []⟩
  only_root : ∀ id row, index.node? id = some row → row.parent = none → id = 0
  links : ∀ id child, child ∈ index.childrenOf id ↔ index.parentOf? child = some id
  preorder : Visits index.childrenOf [0] (List.range index.nodeCount)
  filled : ∀ id row, index.node? id = some row → id ≠ 0 → row.name ≠ "" ∧ row.symbols ≠ []
  symbols : index.table.nodes.toList.flatMap (·.symbols) = List.range index.symbolCount
  listed : ∀ handle info, index.info? handle = some info →
    ∀ id, handle ∈ index.symbolsOf id ↔ id = info.node
  top : ∀ handle info, index.info? handle = some info → index.parentOf? info.node = some 0 →
    info.parent = none
  nested : ∀ handle info, index.info? handle = some info → index.parentOf? info.node ≠ some 0 →
    ∃ parent outer, info.parent = some parent ∧ parent < handle
      ∧ index.parentOf? info.node = some outer ∧ parent ∈ index.symbolsOf outer

variable {index : SymbolIndex}

/-! ### Rows and symbols of places -/

theorem nodes_eq (index : SymbolIndex) : index.table.nodes.toList
    = ⟨"", none, SymbolNode.siblingIds 1 index.forest, []⟩ :: index.places.map (·.row) := by
  have h := congrArg (List.map Prod.fst) (SymbolNode.zipIdx_rowsAll .root 1 0 index.forest)
  rw [List.zipIdx_map_fst, List.map_map] at h
  simp only [index.table_eq, IndexTable.ofForest]
  exact congrArg _ h

/-- The handles of the symbols of the places, one place after the other. -/
theorem flatMap_symbols (index : SymbolIndex) :
    index.places.flatMap (·.row.symbols) = List.range index.symbolCount := by
  have h := congrArg (List.map Prod.snd) (SymbolNode.zipIdx_infosAll .root 1 0 index.forest)
  rw [List.zipIdx_map_snd, List.map_flatMap] at h
  have hinfos (place : Place) : place.infos.length = place.node.entries.length :=
    List.length_map ..
  simp only [List.zipIdx_map_snd, hinfos] at h
  rw [List.range_eq_range', symbolCount, index.table_eq]
  exact h.symm

theorem childrenOf_zero (index : SymbolIndex) :
    index.childrenOf 0 = index.topPlaces.map (·.id) := by
  rw [childrenOf, index.node?_zero, topPlaces, SymbolNode.map_id_siblings]
  rfl

theorem childrenOf_of_mem_places {place : Place} (hplace : place ∈ index.places) :
    index.childrenOf place.id = place.children.map (·.id) := by
  rw [childrenOf, index.node?_of_mem_places hplace, Place.children, SymbolNode.map_id_siblings]
  rfl

theorem parentOf?_of_mem_places {place : Place} (hplace : place ∈ index.places) :
    index.parentOf? place.id = some place.around.node := by
  rw [parentOf?, index.node?_of_mem_places hplace]
  rfl

theorem symbolsOf_of_mem_places {place : Place} (hplace : place ∈ index.places) :
    index.symbolsOf place.id = place.row.symbols := by
  rw [symbolsOf, index.node?_of_mem_places hplace]
  rfl

/-- Every node is the root or the node of a place. -/
theorem eq_zero_or_mem_places {id : Nat} {row : IndexNode} (h : index.node? id = some row) :
    id = 0 ∨ ∃ place ∈ index.places, place.id = id ∧ place.row = row := by
  cases id with
  | zero => exact .inl rfl
  | succ id =>
    obtain ⟨place, hplace, hrow, hid⟩ := index.node?_succ_eq_some_iff.1 h
    exact .inr ⟨place, hplace, hid, hrow⟩

/-- Every place is below the root or below another place. -/
theorem mem_topPlaces_or_children :
    ∀ place ∈ index.places,
      place ∈ index.topPlaces ∨ ∃ outer ∈ index.places, place ∈ outer.children :=
  index.places_induction (fun _ hplace => .inl hplace)
    fun outer houter _ _ hplace => .inr ⟨outer, houter, hplace⟩

/-! ### Order and links -/

/-- Nodes are numbered in the order in which they are visited. -/
theorem preorder_siblingIds (children : Nat → List Nat) :
    ∀ (forest : List SymbolNode) (around : Surroundings) (id handle : Nat),
      (∀ place ∈ SymbolNode.placesAll around id handle forest,
        children place.id = SymbolNode.siblingIds (place.id + 1) place.node.children) →
      Visits children (SymbolNode.siblingIds id forest)
        (List.range' id (SymbolNode.nodeCountAll forest))
  | [], _, _, _, _ => .nil
  | ⟨name, entries, inner⟩ :: rest, around, id, handle, h => by
    have hown := h ⟨around, id, handle, ⟨name, entries, inner⟩⟩
      (List.mem_append_left _ List.mem_cons_self)
    have hbelow := preorder_siblingIds children inner _ (id + 1) (handle + entries.length)
      fun place hplace => h place (List.mem_append_left _ (List.mem_cons_of_mem _ hplace))
    have hafter := preorder_siblingIds children rest around _ _
      fun place hplace => h place (List.mem_append_right _ hplace)
    have hsplit : List.range' id (SymbolNode.nodeCountAll (⟨name, entries, inner⟩ :: rest))
        = id :: (List.range' (id + 1) (SymbolNode.nodeCountAll inner)
          ++ List.range' (id + (SymbolNode.nodeCountAll inner + 1))
            (SymbolNode.nodeCountAll rest)) := by
      rw [SymbolNode.nodeCountAll, SymbolNode.nodeCount, Nat.add_right_comm, List.range'_succ,
        ← List.range'_append_1, Nat.add_right_comm id 1, Nat.add_assoc id]
    rw [hsplit, SymbolNode.siblingIds]
    rw [← hown] at hbelow
    exact .cons hbelow hafter

theorem preorder_range (index : SymbolIndex) :
    Visits index.childrenOf [0] (List.range index.nodeCount) := by
  have hbelow := preorder_siblingIds index.childrenOf index.forest .root 1 0 fun place hplace => by
    rw [childrenOf_of_mem_places hplace, Place.children, SymbolNode.map_id_siblings]
  rw [← SymbolNode.map_id_siblings .root 1 0, ← topPlaces, ← childrenOf_zero] at hbelow
  have h := Visits.cons hbelow .nil
  rw [List.append_nil] at h
  rw [index.nodeCount_eq, List.range_eq_range', List.range'_succ]
  exact h

theorem mem_childrenOf_iff {id child : Nat} :
    child ∈ index.childrenOf id ↔ index.parentOf? child = some id := by
  constructor
  · intro h
    cases hrow : index.node? id with
    | none => simp [childrenOf, hrow] at h
    | some row =>
      rcases eq_zero_or_mem_places hrow with rfl | ⟨outer, houter, rfl, -⟩
      · rw [childrenOf_zero] at h
        obtain ⟨place, hplace, rfl⟩ := List.mem_map.1 h
        rw [parentOf?_of_mem_places (index.topPlaces_subset hplace),
          around_of_mem_topPlaces hplace]
        rfl
      · rw [childrenOf_of_mem_places houter] at h
        obtain ⟨place, hplace, rfl⟩ := List.mem_map.1 h
        rw [parentOf?_of_mem_places (index.children_subset houter hplace),
          Place.around_of_mem_children hplace]
        rfl
  · intro h
    obtain ⟨row, hrow, hparent⟩ := Option.bind_eq_some_iff.1 h
    rcases eq_zero_or_mem_places hrow with rfl | ⟨place, hplace, rfl, rfl⟩
    · rw [index.node?_zero] at hrow
      cases hrow
      cases hparent
    · obtain rfl := Option.some.inj hparent
      rcases mem_topPlaces_or_children place hplace with htop | ⟨outer, houter, hchild⟩
      · rw [around_of_mem_topPlaces htop]
        change place.id ∈ index.childrenOf 0
        rw [childrenOf_zero]
        exact List.mem_map_of_mem htop
      · rw [Place.around_of_mem_children hchild]
        change place.id ∈ index.childrenOf outer.id
        rw [childrenOf_of_mem_places houter]
        exact List.mem_map_of_mem hchild

/-! ### Symbols -/

theorem exists_info?_of_mem_symbolsOf {id handle : Nat} (h : handle ∈ index.symbolsOf id) :
    ∃ info, index.info? handle = some info ∧ info.node = id := by
  obtain ⟨place, hplace, hid, k, entry, hentry, rfl⟩ := exists_place_of_mem_symbols h
  exact ⟨_, index.info?_of_mem_places hplace hentry, hid⟩

theorem mem_symbolsOf_iff {handle : Nat} {info : SymbolInfo}
    (hinfo : index.info? handle = some info) (id : Nat) :
    handle ∈ index.symbolsOf id ↔ id = info.node := by
  constructor
  · intro h
    obtain ⟨info', hinfo', rfl⟩ := exists_info?_of_mem_symbolsOf h
    rw [Option.some.inj (hinfo.symm.trans hinfo')]
  · rintro rfl
    obtain ⟨place, hplace, k, entry, hentry, rfl, rfl⟩ := index.exists_place_of_info? hinfo
    have hk := (List.getElem?_eq_some_iff.1 hentry).1
    change place.handle + k ∈ index.symbolsOf place.id
    rw [symbolsOf_of_mem_places hplace]
    exact List.mem_range'_1.2 ⟨Nat.le_add_right _ _, Nat.add_lt_add_left hk _⟩

theorem name_ne_empty (wellFormed : index.WellFormed) {place : Place}
    (hplace : place ∈ index.places) : place.node.name ≠ "" := by
  have h := wellFormed_of_mem_places wellFormed place hplace
  obtain ⟨_, _, _, ⟨name, entries, children⟩⟩ := place
  exact h.1

/-- A symbol of a place inside another one is contained in a symbol of that one. -/
theorem exists_container (wellFormed : index.WellFormed) {outer place : Place}
    (houter : outer ∈ index.places) (hchild : place ∈ outer.children) {k : Nat} {entry : Entry}
    (hentry : place.node.entries[k]? = some entry) :
    ∃ position, entry.signature.container = some position
      ∧ outer.handle + position ∈ index.symbolsOf outer.id := by
  obtain ⟨position, key, hposition, hkey⟩ :=
    container_of_children wellFormed houter hchild hentry
  have hlt := (List.getElem?_eq_some_iff.1 hkey).1
  rw [Place.length_keys] at hlt
  refine ⟨position, hposition, ?_⟩
  rw [symbolsOf_of_mem_places houter]
  exact List.mem_range'_1.2 ⟨Nat.le_add_right _ _, Nat.add_lt_add_left hlt _⟩

theorem isTree_of_wellFormed (wellFormed : index.WellFormed) : index.IsTree where
  root := ⟨_, index.node?_zero⟩
  only_root := by
    intro id row hrow hparent
    rcases eq_zero_or_mem_places hrow with rfl | ⟨place, -, -, rfl⟩
    · rfl
    · cases hparent
  links id child := mem_childrenOf_iff
  preorder := index.preorder_range
  filled := by
    intro id row hrow hid
    rcases eq_zero_or_mem_places hrow with rfl | ⟨place, hplace, -, rfl⟩
    · exact absurd rfl hid
    · refine ⟨name_ne_empty wellFormed hplace, fun hnil => entries_ne_nil wellFormed hplace ?_⟩
      exact List.length_eq_zero_iff.1 (List.range'_eq_nil_iff.1 hnil)
  symbols := by
    rw [nodes_eq, List.flatMap_cons, List.nil_append, List.flatMap_map]
    exact index.flatMap_symbols
  listed handle info hinfo := mem_symbolsOf_iff hinfo
  top := by
    intro handle info hinfo hparent
    obtain ⟨place, hplace, k, entry, hentry, rfl, rfl⟩ := index.exists_place_of_info? hinfo
    rcases mem_topPlaces_or_children place hplace with htop | ⟨outer, houter, hchild⟩
    · rw [SymbolNode.infoOf, container_of_topPlaces wellFormed htop hentry]
      rfl
    · have hid := index.id_pos_of_mem_places houter
      change index.parentOf? place.id = some 0 at hparent
      rw [parentOf?_of_mem_places hplace, Place.around_of_mem_children hchild] at hparent
      exact absurd (Option.some.inj hparent) (Nat.ne_of_gt hid)
  nested := by
    intro handle info hinfo hparent
    obtain ⟨place, hplace, k, entry, hentry, rfl, rfl⟩ := index.exists_place_of_info? hinfo
    change index.parentOf? place.id ≠ some 0 at hparent
    rw [parentOf?_of_mem_places hplace] at hparent
    rcases mem_topPlaces_or_children place hplace with htop | ⟨outer, houter, hchild⟩
    · rw [around_of_mem_topPlaces htop] at hparent
      exact absurd rfl hparent
    · obtain ⟨position, hposition, hmem⟩ := exists_container wellFormed houter hchild hentry
      have haround := Place.around_of_mem_children hchild
      have hcontainer : (SymbolNode.infoOf place.around.first place.id entry).parent
          = some (outer.handle + position) := by
        rw [SymbolNode.infoOf, hposition, haround]
        rfl
      refine ⟨_, outer.id, hcontainer, parent_lt wellFormed hinfo hcontainer, ?_, hmem⟩
      change index.parentOf? place.id = _
      rw [parentOf?_of_mem_places hplace, haround]
      rfl

end SymbolIndex

end SymbolSearch
