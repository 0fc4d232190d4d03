import Mathlib.Data.List.Nodup
import SymbolSearch.Index.Resolve

/-!
# Places of nodes

A place is a node of a forest together with its number, the handle of its first symbol, and what
encloses it. The places of a forest in pre-order carry everything that an index stores: its rows are
those of the places, and its symbols are those of the places, numbered from one place to the next.
-/

namespace SymbolSearch

/-- What encloses a level of nodes: a node with its number, the handle of its first symbol, the
names on the way to it, and the keys of its symbols. -/
structure Surroundings where
  node : Nat
  first : Nat
  names : List String
  keys : List SymbolKey

/-- Nothing but the root, which has no symbols. -/
def Surroundings.root : Surroundings := ⟨0, 0, [], []⟩

/-- The path of a container among enclosing symbols with these keys. -/
def containerPath (around : List SymbolKey) (container : Option Nat) : List KeySegment :=
  ((container.bind (around[·]?)).map (·.segments)).getD []

/-- The key of a symbol of a node with this name, when the enclosing symbols have these keys. -/
def Signature.keyIn (around : List SymbolKey) (name : String) (signature : Signature) : SymbolKey :=
  ⟨containerPath around signature.container
    ++ [⟨signature.kind, name, signature.arity, signature.parameters⟩], signature.origin⟩

structure Place where
  around : Surroundings
  id : Nat
  handle : Nat
  node : SymbolNode

namespace Place

def keys (place : Place) : List SymbolKey :=
  place.node.entries.map fun entry => entry.signature.keyIn place.around.keys place.node.name

def names (place : Place) : List String := place.around.names ++ [place.node.name]

def inside (place : Place) : Surroundings := ⟨place.id, place.handle, place.names, place.keys⟩

def row (place : Place) : IndexNode :=
  ⟨place.node.name, some place.around.node,
    SymbolNode.siblingIds (place.id + 1) place.node.children,
    List.range' place.handle place.node.entries.length⟩

def infos (place : Place) : List SymbolInfo :=
  place.node.entries.map (SymbolNode.infoOf place.around.first place.id)

@[simp] theorem length_keys (place : Place) :
    place.keys.length = place.node.entries.length := by
  simp [keys]

theorem getElem?_infos (place : Place) (k : Nat) :
    place.infos[k]?
      = place.node.entries[k]?.map (SymbolNode.infoOf place.around.first place.id) := by
  simp [infos]

end Place

namespace SymbolNode

/-- The places of siblings, without what is below them. -/
def siblings (around : Surroundings) (id handle : Nat) : List SymbolNode → List Place
  | [] => []
  | node :: rest =>
    ⟨around, id, handle, node⟩
      :: siblings around (id + node.nodeCount) (handle + node.symbolCount) rest

mutual

def places (around : Surroundings) (id handle : Nat) : SymbolNode → List Place
  | ⟨name, entries, children⟩ =>
    let place : Place := ⟨around, id, handle, ⟨name, entries, children⟩⟩
    place :: placesAll place.inside (id + 1) (handle + entries.length) children

def placesAll (around : Surroundings) (id handle : Nat) : List SymbolNode → List Place
  | [] => []
  | node :: rest =>
    places around id handle node
      ++ placesAll around (id + node.nodeCount) (handle + node.symbolCount) rest

end

end SymbolNode

/-- The places right below a place. -/
def Place.children (place : Place) : List Place :=
  SymbolNode.siblings place.inside (place.id + 1) (place.handle + place.node.entries.length)
    place.node.children

namespace SymbolNode

theorem map_id_siblings (around : Surroundings) (id handle : Nat) (forest : List SymbolNode) :
    (siblings around id handle forest).map (·.id) = siblingIds id forest := by
  induction forest generalizing id handle with
  | nil => rfl
  | cons node rest ih => simp [siblings, siblingIds, ih]

theorem map_node_siblings (around : Surroundings) (id handle : Nat) (forest : List SymbolNode) :
    (siblings around id handle forest).map (·.node) = forest := by
  induction forest generalizing id handle with
  | nil => rfl
  | cons node rest ih => simp [siblings, ih]

theorem around_of_mem_siblings {around : Surroundings} {id handle : Nat}
    {forest : List SymbolNode} {place : Place} (h : place ∈ siblings around id handle forest) :
    place.around = around := by
  induction forest generalizing id handle with
  | nil => cases h
  | cons node rest ih =>
    rcases List.mem_cons.1 h with rfl | h
    · rfl
    · exact ih h

theorem node_mem_of_mem_siblings {around : Surroundings} {id handle : Nat}
    {forest : List SymbolNode} {place : Place} (h : place ∈ siblings around id handle forest) :
    place.node ∈ forest := by
  rw [← map_node_siblings around id handle forest]
  exact List.mem_map_of_mem h

/-! ### The stored form -/

mutual

theorem length_rows (parent id handle : Nat) :
    ∀ node : SymbolNode, (rows parent id handle node).length = node.nodeCount
  | ⟨name, entries, children⟩ => by
    simp [rows, nodeCount, length_rowsAll id (id + 1) (handle + entries.length) children]

theorem length_rowsAll (parent id handle : Nat) :
    ∀ forest : List SymbolNode, (rowsAll parent id handle forest).length = nodeCountAll forest
  | [] => rfl
  | node :: rest => by
    simp [rowsAll, nodeCountAll, length_rows parent id handle node,
      length_rowsAll parent (id + node.nodeCount) (handle + node.symbolCount) rest]

end

mutual

theorem length_infos (containers id handle : Nat) :
    ∀ node : SymbolNode, (infos containers id handle node).length = node.symbolCount
  | ⟨name, entries, children⟩ => by
    simp [infos, symbolCount, length_infosAll handle (id + 1) (handle + entries.length) children]

theorem length_infosAll (containers id handle : Nat) :
    ∀ forest : List SymbolNode,
      (infosAll containers id handle forest).length = symbolCountAll forest
  | [] => rfl
  | node :: rest => by
    simp [infosAll, symbolCountAll, length_infos containers id handle node,
      length_infosAll containers (id + node.nodeCount) (handle + node.symbolCount) rest]

end

mutual

theorem zipIdx_rows (around : Surroundings) (id handle : Nat) :
    ∀ node : SymbolNode, (rows around.node id handle node).zipIdx id
      = (places around id handle node).map fun place => (place.row, place.id)
  | ⟨name, entries, children⟩ => by
    have inner := zipIdx_rowsAll (Place.inside ⟨around, id, handle, ⟨name, entries, children⟩⟩)
      (id + 1) (handle + entries.length) children
    rw [rows, places, List.zipIdx_cons, List.map_cons]
    exact congrArg _ inner

/-- The rows of a forest, numbered in pre-order, are those of its places. -/
theorem zipIdx_rowsAll (around : Surroundings) (id handle : Nat) :
    ∀ forest : List SymbolNode, (rowsAll around.node id handle forest).zipIdx id
      = (placesAll around id handle forest).map fun place => (place.row, place.id)
  | [] => rfl
  | node :: rest => by
    simp [rowsAll, placesAll, List.zipIdx_append, length_rows, zipIdx_rows around id handle node,
      zipIdx_rowsAll around (id + node.nodeCount) (handle + node.symbolCount) rest]

end

mutual

theorem zipIdx_infos (around : Surroundings) (id handle : Nat) :
    ∀ node : SymbolNode, (infos around.first id handle node).zipIdx handle
      = (places around id handle node).flatMap fun place => place.infos.zipIdx place.handle
  | ⟨name, entries, children⟩ => by
    have inner := zipIdx_infosAll (Place.inside ⟨around, id, handle, ⟨name, entries, children⟩⟩)
      (id + 1) (handle + entries.length) children
    rw [infos, places, List.zipIdx_append, List.flatMap_cons, List.length_map]
    exact congrArg _ inner

/-- The symbols of a forest, numbered from the first handle on, are those of its places, each of
which numbers its own from its handle on. -/
theorem zipIdx_infosAll (around : Surroundings) (id handle : Nat) :
    ∀ forest : List SymbolNode, (infosAll around.first id handle forest).zipIdx handle
      = (placesAll around id handle forest).flatMap fun place => place.infos.zipIdx place.handle
  | [] => rfl
  | node :: rest => by
    simp [infosAll, placesAll, List.zipIdx_append, length_infos,
      zipIdx_infos around id handle node,
      zipIdx_infosAll around (id + node.nodeCount) (handle + node.symbolCount) rest]

end

/-! ### Levels -/

theorem mem_placesAll_of_siblings (around : Surroundings) (id handle : Nat)
    (forest : List SymbolNode) {place : Place} (h : place ∈ siblings around id handle forest) :
    place ∈ placesAll around id handle forest := by
  induction forest generalizing id handle with
  | nil => cases h
  | cons node rest ih =>
    obtain ⟨name, entries, children⟩ := node
    rcases List.mem_cons.1 h with rfl | h
    · exact List.mem_append_left _ List.mem_cons_self
    · exact List.mem_append_right _ (ih _ _ h)

/-- The places of a forest are those of its siblings, each followed by what is below it. -/
theorem placesAll_eq (around : Surroundings) (id handle : Nat) (forest : List SymbolNode) :
    placesAll around id handle forest
      = (siblings around id handle forest).flatMap fun place =>
          place :: placesAll place.inside (place.id + 1)
            (place.handle + place.node.entries.length) place.node.children := by
  induction forest generalizing id handle with
  | nil => rfl
  | cons node rest ih =>
    obtain ⟨name, entries, children⟩ := node
    rw [placesAll, ih, siblings, List.flatMap_cons]
    rfl

mutual

theorem mem_places_of_below (around : Surroundings) (id handle : Nat) :
    ∀ node : SymbolNode, ∀ outer ∈ places around id handle node,
      ∀ place ∈ outer.children, place ∈ places around id handle node
  | ⟨name, entries, children⟩, outer, houter, place, hplace => by
    rcases List.mem_cons.1 houter with rfl | houter
    · exact List.mem_cons_of_mem _ (mem_placesAll_of_siblings _ _ _ _ hplace)
    · exact List.mem_cons_of_mem _ (mem_placesAll_of_below _ _ _ children outer houter place hplace)

/-- Below a place of a forest there are places of the same forest. -/
theorem mem_placesAll_of_below (around : Surroundings) (id handle : Nat) :
    ∀ forest : List SymbolNode, ∀ outer ∈ placesAll around id handle forest,
      ∀ place ∈ outer.children, place ∈ placesAll around id handle forest
  | node :: rest, outer, houter, place, hplace => by
    rcases List.mem_append.1 houter with houter | houter
    · exact List.mem_append_left _ (mem_places_of_below _ _ _ node outer houter place hplace)
    · exact List.mem_append_right _ (mem_placesAll_of_below _ _ _ rest outer houter place hplace)

end

mutual

theorem places_induction {motive : Place → Prop} (around : Surroundings) (id handle : Nat) :
    ∀ node : SymbolNode, motive ⟨around, id, handle, node⟩ →
      (∀ outer ∈ places around id handle node, motive outer →
        ∀ place ∈ outer.children, motive place) →
      ∀ place ∈ places around id handle node, motive place
  | ⟨name, entries, children⟩, top, inner, place, hplace => by
    rcases List.mem_cons.1 hplace with rfl | hplace
    · exact top
    · exact placesAll_induction _ _ _ children (inner _ List.mem_cons_self top)
        (fun outer houter => inner outer (List.mem_cons_of_mem _ houter)) place hplace

/-- What holds on the first level, and below every place at which it holds, holds everywhere. -/
theorem placesAll_induction {motive : Place → Prop} (around : Surroundings) (id handle : Nat) :
    ∀ forest : List SymbolNode, (∀ place ∈ siblings around id handle forest, motive place) →
      (∀ outer ∈ placesAll around id handle forest, motive outer →
        ∀ place ∈ outer.children, motive place) →
      ∀ place ∈ placesAll around id handle forest, motive place
  | node :: rest, top, inner, place, hplace => by
    rcases List.mem_append.1 hplace with hplace | hplace
    · exact places_induction _ _ _ node (top _ List.mem_cons_self)
        (fun outer houter => inner outer (List.mem_append_left _ houter)) place hplace
    · exact placesAll_induction _ _ _ rest (fun p hp => top p (List.mem_cons_of_mem _ hp))
        (fun outer houter => inner outer (List.mem_append_right _ houter)) place hplace

end

end SymbolNode

namespace SymbolIndex

variable (index : SymbolIndex)

/-- The places of all nodes of an index but the root. -/
def places : List Place := SymbolNode.placesAll .root 1 0 index.forest

/-- The places right below the root. -/
def topPlaces : List Place := SymbolNode.siblings .root 1 0 index.forest

theorem places_induction {motive : Place → Prop} (top : ∀ place ∈ index.topPlaces, motive place)
    (inner : ∀ outer ∈ index.places, motive outer → ∀ place ∈ outer.children, motive place) :
    ∀ place ∈ index.places, motive place :=
  SymbolNode.placesAll_induction _ _ _ _ top inner

theorem topPlaces_subset {place : Place} (h : place ∈ index.topPlaces) : place ∈ index.places :=
  SymbolNode.mem_placesAll_of_siblings _ _ _ _ h

theorem children_subset {outer place : Place} (houter : outer ∈ index.places)
    (h : place ∈ outer.children) : place ∈ index.places :=
  SymbolNode.mem_placesAll_of_below _ _ _ _ outer houter place h

theorem nodeCount_eq :
    index.nodeCount = SymbolNode.nodeCountAll index.forest + 1 := by
  simp [nodeCount, index.table_eq, IndexTable.ofForest, SymbolNode.length_rowsAll]

theorem symbolCount_eq :
    index.symbolCount = SymbolNode.symbolCountAll index.forest := by
  simp [symbolCount, index.table_eq, IndexTable.ofForest, SymbolNode.length_infosAll]

theorem info?_eq_some_iff {handle : Nat} {info : SymbolInfo} :
    index.info? handle = some info
      ↔ ∃ place ∈ index.places, (info, handle) ∈ place.infos.zipIdx place.handle := by
  have numbered := SymbolNode.zipIdx_infosAll .root 1 0 index.forest
  rw [← List.mem_flatMap, places, ← numbered, List.mk_mem_zipIdx_iff_getElem?]
  simp [info?, index.table_eq, IndexTable.ofForest, Surroundings.root]

/-- A symbol of an index is a symbol of one of its places. -/
theorem exists_place_of_info? {handle : Nat} {info : SymbolInfo}
    (h : index.info? handle = some info) :
    ∃ place ∈ index.places, ∃ k entry, place.node.entries[k]? = some entry
      ∧ handle = place.handle + k
      ∧ info = SymbolNode.infoOf place.around.first place.id entry := by
  obtain ⟨place, hplace, hmem⟩ := index.info?_eq_some_iff.1 h
  obtain ⟨hle, hget⟩ := List.mk_mem_zipIdx_iff_le_and_getElem?_sub.1 hmem
  rw [place.getElem?_infos] at hget
  obtain ⟨entry, hentry, rfl⟩ := Option.map_eq_some_iff.1 hget
  exact ⟨place, hplace, handle - place.handle, entry, hentry, by omega, rfl⟩

theorem info?_of_mem_places {place : Place} (hplace : place ∈ index.places) {k : Nat}
    {entry : Entry} (hentry : place.node.entries[k]? = some entry) :
    index.info? (place.handle + k)
      = some (SymbolNode.infoOf place.around.first place.id entry) := by
  refine index.info?_eq_some_iff.2 ⟨place, hplace, ?_⟩
  rw [List.mk_add_mem_zipIdx_iff_getElem?, place.getElem?_infos, hentry]
  rfl

theorem node?_zero :
    index.node? 0 = some ⟨"", none, SymbolNode.siblingIds 1 index.forest, []⟩ := by
  simp [node?, index.table_eq, IndexTable.ofForest]

theorem node?_succ_eq_some_iff {id : Nat} {row : IndexNode} :
    index.node? (id + 1) = some row
      ↔ ∃ place ∈ index.places, place.row = row ∧ place.id = id + 1 := by
  have numbered := SymbolNode.zipIdx_rowsAll .root 1 0 index.forest
  have stored : index.node? (id + 1)
      = (SymbolNode.rowsAll Surroundings.root.node 1 0 index.forest)[id]? := by
    simp [node?, index.table_eq, IndexTable.ofForest, Surroundings.root]
  rw [stored, ← List.mk_add_mem_zipIdx_iff_getElem? (k := 1), numbered, List.mem_map, places]
  simp [Nat.add_comm]

theorem id_pos_of_mem_places {place : Place} (hplace : place ∈ index.places) : 0 < place.id := by
  have numbered := SymbolNode.zipIdx_rowsAll .root 1 0 index.forest
  have hmem : (place.row, place.id)
      ∈ (SymbolNode.rowsAll Surroundings.root.node 1 0 index.forest).zipIdx 1 := by
    rw [numbered]
    exact List.mem_map_of_mem hplace
  exact List.le_snd_of_mem_zipIdx hmem

theorem node?_of_mem_places {place : Place} (hplace : place ∈ index.places) :
    index.node? place.id = some place.row := by
  obtain ⟨id, hid⟩ := Nat.exists_eq_add_of_lt (index.id_pos_of_mem_places hplace)
  rw [Nat.zero_add] at hid
  rw [hid]
  exact index.node?_succ_eq_some_iff.2 ⟨place, hplace, rfl, hid⟩

/-- The places of an index are told apart by their numbers. -/
theorem eq_of_id_eq {place other : Place} (hplace : place ∈ index.places)
    (hother : other ∈ index.places) (h : place.id = other.id) : place = other := by
  have numbered := SymbolNode.zipIdx_rowsAll .root 1 0 index.forest
  have hids : (index.places.map (·.id)).Nodup := by
    have hmap : index.places.map (·.id)
        = (index.places.map fun place => (place.row, place.id)).map Prod.snd := by simp
    rw [hmap, places, ← numbered, List.zipIdx_map_snd]
    exact List.nodup_range'
  exact List.inj_on_of_nodup_map hids hplace hother h

theorem nodeName_of_mem_places {place : Place} (hplace : place ∈ index.places) :
    index.nodeName place.id = place.node.name := by
  simp [nodeName, index.node?_of_mem_places hplace, Place.row]

end SymbolIndex

end SymbolSearch
