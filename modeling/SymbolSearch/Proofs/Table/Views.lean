import SymbolSearch.Proofs.Table.Names

/-!
# Views of symbols

What an index tells of a symbol apart from its numbers. A forest tells this of all of its symbols,
one node after the other, wherever its numbering begins.
-/

namespace SymbolSearch

/-- A symbol without its handle, its node and the handle of its container. -/
structure SymbolView where
  key : SymbolKey
  name : String
  kind : SymbolKind
  accessibility : Accessibility
  arity : UInt32
  parameters : List String
  locations : List Location
  deriving DecidableEq, Repr

namespace SymbolView

def isSource (view : SymbolView) : Bool := view.key.origin == .source

end SymbolView

/-- What is seen of a symbol of a node with this name, if the enclosing symbols have these keys. -/
def Entry.viewIn (around : List SymbolKey) (name : String) (entry : Entry) : SymbolView :=
  ⟨entry.signature.keyIn around name, name, entry.signature.kind, entry.accessibility,
    entry.signature.arity, entry.signature.parameters, entry.locations⟩

namespace SymbolNode

mutual

def views (around : List SymbolKey) : SymbolNode → List SymbolView
  | ⟨name, entries, children⟩ =>
    entries.map (·.viewIn around name)
      ++ viewsAll (entries.map fun entry => entry.signature.keyIn around name) children

def viewsAll (around : List SymbolKey) : List SymbolNode → List SymbolView
  | [] => []
  | node :: rest => views around node ++ viewsAll around rest

end

theorem viewsAll_eq (around : List SymbolKey) (forest : List SymbolNode) :
    viewsAll around forest = forest.flatMap (views around) := by
  induction forest with
  | nil => rfl
  | cons node rest ih => rw [viewsAll, ih, List.flatMap_cons]

end SymbolNode

def Place.views (place : Place) : List SymbolView :=
  place.node.entries.map (·.viewIn place.around.keys place.node.name)

namespace SymbolNode

mutual

theorem flatMap_views_places (around : Surroundings) (id handle : Nat) :
    ∀ node : SymbolNode,
      (places around id handle node).flatMap Place.views = views around.keys node
  | ⟨name, entries, children⟩ => by
    let place : Place := ⟨around, id, handle, ⟨name, entries, children⟩⟩
    have inner := flatMap_views_placesAll place.inside (id + 1) (handle + entries.length) children
    rw [places, List.flatMap_cons, views]
    exact congrArg _ inner

/-- The numbers of a forest are not seen. -/
theorem flatMap_views_placesAll (around : Surroundings) (id handle : Nat) :
    ∀ forest : List SymbolNode,
      (placesAll around id handle forest).flatMap Place.views = viewsAll around.keys forest
  | [] => rfl
  | node :: rest => by
    rw [placesAll, List.flatMap_append, flatMap_views_places around id handle node,
      flatMap_views_placesAll around _ _ rest, viewsAll]

end

end SymbolNode

namespace SymbolIndex

variable {index : SymbolIndex}

def view? (index : SymbolIndex) (handle : Nat) : Option SymbolView := do
  let info ← index.info? handle
  let key ← index.key? handle
  return ⟨key, index.nodeName info.node, info.kind, info.accessibility, info.arity,
    info.parameters, info.locations⟩

theorem view?_eq (index : SymbolIndex) (handle : Nat) :
    index.view? handle = (index.info? handle).map fun info =>
      ⟨⟨index.segmentsUp (handle + 1) handle [], info.origin⟩, index.nodeName info.node, info.kind,
        info.accessibility, info.arity, info.parameters, info.locations⟩ := by
  rw [view?, key?]
  cases index.info? handle with
  | none => rfl
  | some info => rfl

theorem name?_eq_view? (index : SymbolIndex) (handle : Nat) :
    index.name? handle = (index.view? handle).map (·.name) := by
  rw [name?, view?_eq, Option.map_map]
  rfl

/-- Whether a symbol is accepted is seen. -/
theorem accepts_eq_view? (index : SymbolIndex) (options : FindOptions) (handle : Nat) :
    index.accepts options handle = (index.view? handle).any fun view =>
      options.filter.accepts view.kind && options.scope.includes view.key.origin := by
  rw [accepts, view?_eq]
  cases index.info? handle with
  | none => rfl
  | some info => rfl

theorem map_view?_symbols (wellFormed : index.WellFormed) {place : Place}
    (hplace : place ∈ index.places) :
    place.row.symbols.map index.view? = place.views.map some := by
  apply List.ext_getElem (by simp [Place.row, Place.views])
  intro k h _
  have hk : k < place.node.entries.length := by simpa [Place.row] using h
  have hentry := List.getElem?_eq_getElem hk
  have hkeys : place.keys[k]?
      = some (place.node.entries[k].signature.keyIn place.around.keys place.node.name) := by
    rw [Place.keys, List.getElem?_map, hentry]
    rfl
  have hinfo := index.info?_of_mem_places hplace hentry
  have hkey := key?_of_mem_places wellFormed hplace hkeys
  have hname := index.nodeName_of_mem_places hplace
  have hview : index.view? (place.handle + k)
      = some (place.node.entries[k].viewIn place.around.keys place.node.name) := by
    rw [view?, hinfo, hkey, ← hname]
    rfl
  simpa [Place.row, Place.views] using hview

/-- The symbols in the order of their handles are those of the forest. -/
theorem map_view?_range (wellFormed : index.WellFormed) :
    (List.range index.symbolCount).map index.view?
      = (SymbolNode.viewsAll [] index.forest).map some := by
  have hviews : index.places.flatMap Place.views = SymbolNode.viewsAll [] index.forest :=
    SymbolNode.flatMap_views_placesAll .root 1 0 index.forest
  rw [← flatMap_symbols, ← hviews, List.map_flatMap, List.map_flatMap]
  exact List.flatMap_congr fun place hplace => map_view?_symbols wellFormed hplace

end SymbolIndex

end SymbolSearch
