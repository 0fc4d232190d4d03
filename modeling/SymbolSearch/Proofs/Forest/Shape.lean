import SymbolSearch.Proofs.Forest.Places

/-!
# Shapes of forests

Every index is over a well-formed forest: nodes have names and symbols, and all symbols below the
first level name a symbol of the enclosing node as their container. A forest that was merged from
declarations is unambiguous as well: siblings differ in their names, the symbols of a node in their
signatures, and nothing is contained in a symbol of another origin.
-/

namespace SymbolSearch

attribute [ext] Signature

/-- The container is one of `around` symbols, and is absent only if there are none. -/
def Signature.Fits (around : Nat) (signature : Signature) : Prop :=
  match signature.container with
  | none => around = 0
  | some position => position < around

/-- The container, if there is one, has the same origin. -/
def Signature.Agrees (around : List SymbolOrigin) (signature : Signature) : Prop :=
  ∀ position ∈ signature.container, around[position]? = some signature.origin

namespace SymbolNode

mutual

def WellFormed (around : Nat) : SymbolNode → Prop
  | ⟨name, entries, children⟩ =>
    name ≠ "" ∧ entries ≠ [] ∧ (∀ entry ∈ entries, entry.signature.Fits around)
      ∧ WellFormedAll entries.length children

/-- The forest stands below a node that has `around` symbols. -/
def WellFormedAll (around : Nat) : List SymbolNode → Prop
  | [] => True
  | node :: rest => WellFormed around node ∧ WellFormedAll around rest

end

mutual

def Unambiguous (around : List SymbolOrigin) : SymbolNode → Prop
  | ⟨_, entries, children⟩ =>
    (entries.map (·.signature)).Nodup ∧ (∀ entry ∈ entries, entry.signature.Agrees around)
      ∧ UnambiguousAll (entries.map (·.signature.origin)) children

/-- The forest stands below a node whose symbols have the origins `around`. -/
def UnambiguousAll (around : List SymbolOrigin) : List SymbolNode → Prop
  | [] => True
  | node :: rest =>
    Unambiguous around node ∧ (∀ other ∈ rest, other.name ≠ node.name) ∧ UnambiguousAll around rest

end

theorem wellFormed_of_mem {around : Nat} {forest : List SymbolNode}
    (h : WellFormedAll around forest) {node : SymbolNode} (hnode : node ∈ forest) :
    node.WellFormed around := by
  induction forest with
  | nil => cases hnode
  | cons other rest ih =>
    rcases List.mem_cons.1 hnode with rfl | hnode
    · exact h.1
    · exact ih h.2 hnode

theorem unambiguous_of_mem {around : List SymbolOrigin} {forest : List SymbolNode}
    (h : UnambiguousAll around forest) {node : SymbolNode} (hnode : node ∈ forest) :
    node.Unambiguous around := by
  induction forest with
  | nil => cases hnode
  | cons other rest ih =>
    rcases List.mem_cons.1 hnode with rfl | hnode
    · exact h.1
    · exact ih h.2.2 hnode

theorem wellFormedAll_of_forall {around : Nat} {forest : List SymbolNode}
    (h : ∀ node ∈ forest, node.WellFormed around) : WellFormedAll around forest := by
  induction forest with
  | nil => trivial
  | cons node rest ih =>
    have hrest := ih fun other hother => h other (List.mem_cons_of_mem _ hother)
    exact ⟨h node List.mem_cons_self, hrest⟩

theorem unambiguousAll_of_forall {around : List SymbolOrigin} {forest : List SymbolNode}
    (names : (forest.map (·.name)).Nodup) (h : ∀ node ∈ forest, node.Unambiguous around) :
    UnambiguousAll around forest := by
  induction forest with
  | nil => trivial
  | cons node rest ih =>
    obtain ⟨hnode, hrest⟩ := List.nodup_cons.1 names
    refine ⟨h node List.mem_cons_self, fun other hother hname => ?_,
      ih hrest fun other hother => h other (List.mem_cons_of_mem _ hother)⟩
    exact hnode (List.mem_map.2 ⟨other, hother, hname⟩)

/-- Among the places of siblings with different names, the one with a name is the first of it. -/
theorem find?_name_siblings {around : List SymbolOrigin} {forest : List SymbolNode}
    (h : UnambiguousAll around forest) {outer : Surroundings} {id handle : Nat} {place : Place}
    (hplace : place ∈ siblings outer id handle forest) :
    (siblings outer id handle forest).find? (·.node.name == place.node.name) = some place := by
  induction forest generalizing id handle with
  | nil => cases hplace
  | cons node rest ih =>
    obtain ⟨-, hne, hrest⟩ := h
    rcases List.mem_cons.1 hplace with rfl | hplace
    · simp [siblings]
    · have hdiff : (node.name == place.node.name) = false :=
        beq_false_of_ne (hne _ (node_mem_of_mem_siblings hplace)).symm
      simp only [siblings, List.find?_cons, hdiff]
      exact ih hrest hplace

theorem le_handle_of_mem_siblings {outer : Surroundings} {id handle : Nat}
    {forest : List SymbolNode} {place : Place} (h : place ∈ siblings outer id handle forest) :
    handle ≤ place.handle := by
  induction forest generalizing id handle with
  | nil => cases h
  | cons node rest ih =>
    rcases List.mem_cons.1 h with rfl | h
    · exact Nat.le_refl _
    · exact Nat.le_trans (Nat.le_add_right _ _) (ih h)

end SymbolNode

namespace Place

theorem around_of_mem_children {outer place : Place} (h : place ∈ outer.children) :
    place.around = outer.inside := SymbolNode.around_of_mem_siblings h

theorem node_mem_of_mem_children {outer place : Place} (h : place ∈ outer.children) :
    place.node ∈ outer.node.children := SymbolNode.node_mem_of_mem_siblings h

theorem wellFormed_children {outer place : Place} {around : Nat}
    (houter : outer.node.WellFormed around) (h : place ∈ outer.children) :
    place.node.WellFormed outer.node.entries.length := by
  obtain ⟨_, _, _, ⟨name, entries, children⟩⟩ := outer
  exact SymbolNode.wellFormed_of_mem houter.2.2.2 (node_mem_of_mem_children h)

theorem unambiguous_children {outer place : Place} {around : List SymbolOrigin}
    (houter : outer.node.Unambiguous around) (h : place ∈ outer.children) :
    place.node.Unambiguous (outer.node.entries.map (·.signature.origin)) := by
  obtain ⟨_, _, _, ⟨name, entries, children⟩⟩ := outer
  exact SymbolNode.unambiguous_of_mem houter.2.2 (node_mem_of_mem_children h)

theorem find?_name_children {outer place : Place} {around : List SymbolOrigin}
    (houter : outer.node.Unambiguous around) (h : place ∈ outer.children) :
    outer.children.find? (·.node.name == place.node.name) = some place := by
  obtain ⟨_, _, _, ⟨name, entries, children⟩⟩ := outer
  exact SymbolNode.find?_name_siblings houter.2.2 h

theorem map_origin_keys (place : Place) :
    place.keys.map (·.origin) = place.node.entries.map (·.signature.origin) := by
  simp [keys, Signature.keyIn, Function.comp_def]

end Place

namespace SymbolIndex

variable {index : SymbolIndex}

def WellFormed (index : SymbolIndex) : Prop := SymbolNode.WellFormedAll 0 index.forest

def Unambiguous (index : SymbolIndex) : Prop := SymbolNode.UnambiguousAll [] index.forest

theorem around_of_mem_topPlaces {place : Place} (h : place ∈ index.topPlaces) :
    place.around = .root := SymbolNode.around_of_mem_siblings h

theorem wellFormed_of_mem_places (wellFormed : index.WellFormed) :
    ∀ place ∈ index.places, place.node.WellFormed place.around.keys.length := by
  refine index.places_induction
    (motive := fun place => place.node.WellFormed place.around.keys.length) ?_ ?_
  · intro place hplace
    rw [around_of_mem_topPlaces hplace]
    exact SymbolNode.wellFormed_of_mem wellFormed (SymbolNode.node_mem_of_mem_siblings hplace)
  · intro outer _ ih place hplace
    rw [Place.around_of_mem_children hplace, Place.inside, Place.length_keys]
    exact Place.wellFormed_children ih hplace

theorem unambiguous_of_mem_places (unambiguous : index.Unambiguous) :
    ∀ place ∈ index.places, place.node.Unambiguous (place.around.keys.map (·.origin)) := by
  refine index.places_induction
    (motive := fun place => place.node.Unambiguous (place.around.keys.map (·.origin))) ?_ ?_
  · intro place hplace
    rw [around_of_mem_topPlaces hplace]
    exact SymbolNode.unambiguous_of_mem unambiguous (SymbolNode.node_mem_of_mem_siblings hplace)
  · intro outer _ ih place hplace
    rw [Place.around_of_mem_children hplace, Place.inside, Place.map_origin_keys]
    exact Place.unambiguous_children ih hplace

theorem entries_ne_nil (wellFormed : index.WellFormed) {place : Place}
    (hplace : place ∈ index.places) : place.node.entries ≠ [] := by
  have h := wellFormed_of_mem_places wellFormed place hplace
  obtain ⟨_, _, _, ⟨name, entries, children⟩⟩ := place
  exact h.2.1

theorem fits_of_getElem? (wellFormed : index.WellFormed) {place : Place}
    (hplace : place ∈ index.places) {k : Nat} {entry : Entry}
    (hentry : place.node.entries[k]? = some entry) :
    entry.signature.Fits place.around.keys.length := by
  have h := wellFormed_of_mem_places wellFormed place hplace
  obtain ⟨_, _, _, ⟨name, entries, children⟩⟩ := place
  exact h.2.2.1 entry (List.mem_of_getElem? hentry)

theorem agrees_of_getElem? (unambiguous : index.Unambiguous) {place : Place}
    (hplace : place ∈ index.places) {k : Nat} {entry : Entry}
    (hentry : place.node.entries[k]? = some entry) :
    entry.signature.Agrees (place.around.keys.map (·.origin)) := by
  have h := unambiguous_of_mem_places unambiguous place hplace
  obtain ⟨_, _, _, ⟨name, entries, children⟩⟩ := place
  exact h.2.1 entry (List.mem_of_getElem? hentry)

theorem signatures_nodup (unambiguous : index.Unambiguous) {place : Place}
    (hplace : place ∈ index.places) : (place.node.entries.map (·.signature)).Nodup := by
  have h := unambiguous_of_mem_places unambiguous place hplace
  obtain ⟨_, _, _, ⟨name, entries, children⟩⟩ := place
  exact h.1

/-- The symbols of the enclosing node come before those of the place. -/
theorem first_add_le_handle :
    ∀ place ∈ index.places, place.around.first + place.around.keys.length ≤ place.handle := by
  refine index.places_induction
    (motive := fun place => place.around.first + place.around.keys.length ≤ place.handle) ?_ ?_
  · intro place hplace
    rw [around_of_mem_topPlaces hplace]
    exact Nat.zero_le _
  · intro outer _ _ place hplace
    rw [Place.around_of_mem_children hplace, Place.inside, Place.length_keys]
    exact SymbolNode.le_handle_of_mem_siblings hplace

/-- A container has a smaller handle than what it contains. -/
theorem parent_lt (wellFormed : index.WellFormed) {handle parent : Nat} {info : SymbolInfo}
    (h : index.info? handle = some info) (hparent : info.parent = some parent) :
    parent < handle := by
  obtain ⟨place, hplace, k, entry, hentry, rfl, rfl⟩ := index.exists_place_of_info? h
  have fits := fits_of_getElem? wellFormed hplace hentry
  have before := first_add_le_handle place hplace
  obtain ⟨position, hposition, rfl⟩ := Option.map_eq_some_iff.1 hparent
  rw [Signature.Fits, hposition] at fits
  simp only at fits
  omega

end SymbolIndex

end SymbolSearch
