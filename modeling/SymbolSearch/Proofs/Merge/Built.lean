import Mathlib.Data.Set.Function
import Mathlib.Order.Interval.Set.Defs
import SymbolSearch.Proofs.Merge.Declarations

/-!
# Built indexes

An index that is built from a project says of every symbol and of every node what the effective
declarations of the project say, and it has no others.
-/

namespace SymbolSearch

theorem SymbolNode.map_names_siblings (around : Surroundings) (id handle : Nat)
    (forest : List SymbolNode) : (siblings around id handle forest).map (·.names)
      = forest.map fun node => around.names ++ [node.name] := by
  induction forest generalizing id handle with
  | nil => rfl
  | cons node rest ih => rw [siblings, List.map_cons, ih, List.map_cons, Place.names]

/-- The names on the way to a place begin with those around its forest. -/
theorem SymbolNode.names_of_mem_placesAll {around : Surroundings} {id handle : Nat}
    {forest : List SymbolNode} :
    ∀ place ∈ placesAll around id handle forest,
      ∃ name rest, place.names = around.names ++ name :: rest := by
  refine placesAll_induction around id handle forest ?_ ?_
  · intro place hplace
    exact ⟨_, [], by rw [Place.names, around_of_mem_siblings hplace]⟩
  · rintro outer - ⟨name, rest, hnames⟩ place hplace
    refine ⟨name, rest ++ [place.node.name], ?_⟩
    rw [Place.names, Place.around_of_mem_children hplace, Place.inside, hnames, List.append_assoc]
    rfl

namespace Occurrence

variable {around : Surroundings} {occurrences : List Occurrence}

theorem keys_nodeOf (around : Surroundings) (occurrences : List Occurrence) (name : String)
    (id handle : Nat) : Place.keys ⟨around, id, handle, nodeOf occurrences name⟩
      = groupKeys around.keys name occurrences := by
  simp [Place.keys, nodeOf, groupKeys, entries, entryOf, Function.comp_def]

/-- A node with the occurrences of a name says what is declared under this name. -/
theorem represents_nodeOf (surrounding : AreSurrounding around.names around.keys)
    (hlevel : AreLevel around.keys occurrences) {name : String}
    (hname : name ∈ occurrences.map (·.name)) (id handle : Nat) :
    Place.Represents (declaredLevel around.keys occurrences)
      ⟨around, id, handle, nodeOf occurrences name⟩ := by
  have hkeys := keys_nodeOf around occurrences name id handle
  have hentry {entry : Entry} (h : entry ∈ (nodeOf occurrences name).entries) :
      entry.signature ∈ signatures (named name occurrences)
        ∧ entry = entryOf (named name occurrences) entry.signature := by
    obtain ⟨signature, hsignature, rfl⟩ := List.mem_map.1 h
    exact ⟨hsignature, rfl⟩
  constructor
  · rw [hkeys, List.filter_map, Function.comp_def]
    have hown : (declaredLevel around.keys occurrences).filter
        (fun x => x.key.names = Place.names ⟨around, id, handle, nodeOf occurrences name⟩)
          = (named name occurrences).map (·.own around.keys) :=
      filter_names_eq surrounding hlevel name
    have hsignatures : ((named name occurrences).map (·.own around.keys)).map (·.key)
        = ((named name occurrences).map (·.signature)).map (·.keyIn around.keys name) := by
      rw [List.map_map, List.map_map]
      apply List.map_congr_left
      intro o ho
      simp [own, key, (mem_named.1 ho).2]
    rw [hown, hsignatures, Distinct.eraseDups_map, groupKeys, signatures]
    intro a ha b hb h
    obtain ⟨o, ho, rfl⟩ := List.mem_map.1 ha
    obtain ⟨o', ho', rfl⟩ := List.mem_map.1 hb
    have hmem := (mem_named.1 ho).1
    have hmem' := (mem_named.1 ho').1
    exact keyIn_injective surrounding (hlevel.fits o hmem) (hlevel.fits o' hmem')
      (hlevel.agrees o hmem) (hlevel.agrees o' hmem') h
  · intro entry h
    obtain ⟨hsignature, heq⟩ := hentry h
    have hfilter := filter_key_eq surrounding hlevel hsignature
    change _ = ((declaredLevel around.keys occurrences).filter
      (·.key = entry.signature.keyIn around.keys name)).filterMap (·.location?)
    rw [hfilter, List.filterMap_map, heq]
    rfl
  · intro entry h
    obtain ⟨hsignature, heq⟩ := hentry h
    have hfilter := filter_key_eq surrounding hlevel hsignature
    change _ = ((declaredLevel around.keys occurrences).find?
      (·.key = entry.signature.keyIn around.keys name)).map (·.accessibility)
    rw [← List.head?_filter, hfilter, List.head?_map, heq]
    obtain ⟨o, ho, hsame⟩ := exists_of_mem_signatures hsignature
    have hmem : o ∈ (named name occurrences).filter (·.signature == entry.signature) :=
      List.mem_filter.2 ⟨ho, beq_iff_eq.2 hsame⟩
    obtain ⟨first, hfirst⟩ := Option.isSome_iff_exists.1
      (List.isSome_head?.2 (List.ne_nil_of_mem hmem))
    simp [entryOf, hfirst, own]
  · have hnames := surrounding_groupKeys surrounding hlevel hname
    rw [Place.children, SymbolNode.map_names_siblings]
    change (merge (level (named name occurrences))).map
      (fun node => (around.names ++ [name]) ++ [node.name]) = _
    rw [names_merge hnames (level_named around.keys name occurrences), List.filter_map,
      List.filter_map, filter_declaredLevel_inner surrounding hlevel name]
    · rfl
    · intro x hx
      obtain ⟨last, hlast⟩ := exists_last_of_dropLast_eq (of_decide_eq_true hx)
      exact ⟨last, [], hlast⟩

/-- What is around the forest inside a node is around the level that is merged to it. -/
theorem surrounding_inside (surrounding : AreSurrounding around.names around.keys)
    (hlevel : AreLevel around.keys occurrences) {name : String}
    (hname : name ∈ occurrences.map (·.name)) (id handle : Nat) :
    AreSurrounding (Place.inside ⟨around, id, handle, nodeOf occurrences name⟩).names
        (Place.inside ⟨around, id, handle, nodeOf occurrences name⟩).keys
      ∧ AreLevel (Place.inside ⟨around, id, handle, nodeOf occurrences name⟩).keys
        (level (named name occurrences)) := by
  rw [Place.inside, keys_nodeOf]
  exact ⟨surrounding_groupKeys surrounding hlevel hname, level_named around.keys name occurrences⟩

theorem represents_merge (surrounding : AreSurrounding around.names around.keys)
    (hlevel : AreLevel around.keys occurrences) (id handle : Nat) :
    ∀ place ∈ SymbolNode.placesAll around id handle (merge occurrences),
      place.Represents (declaredLevel around.keys occurrences) := by
  induction occurrences using merge.induct generalizing around id handle with
  | case1 occurrences ih =>
    intro place hplace
    rw [SymbolNode.placesAll_eq] at hplace
    obtain ⟨top, htop, hbelow⟩ := List.mem_flatMap.1 hplace
    have haround := SymbolNode.around_of_mem_siblings htop
    obtain ⟨name, hname, hnode⟩ := exists_of_mem_merge (SymbolNode.node_mem_of_mem_siblings htop)
    obtain ⟨outer, id', handle', node⟩ := top
    simp only at haround hnode
    subst outer node
    rcases List.mem_cons.1 hbelow with rfl | hinner
    · exact represents_nodeOf surrounding hlevel hname id' handle'
    · obtain ⟨hsurrounding, hlower⟩ := surrounding_inside surrounding hlevel hname id' handle'
      refine Place.Represents.of_below (ih name (List.mem_eraseDups.2 hname) hsurrounding hlower
        _ _ place hinner) fun holds hholds => ?_
      obtain ⟨inner, rest, hnames⟩ := SymbolNode.names_of_mem_placesAll place hinner
      rw [filter_declaredLevel_inner surrounding hlevel name, Place.inside, keys_nodeOf]
      intro x hx
      obtain ⟨rest', hrest⟩ := hholds x hx
      refine ⟨inner, rest ++ rest', ?_⟩
      rw [hrest, hnames]
      simp [Place.inside, Place.names, nodeOf]

/-- Every declaration of a level is one of a symbol of the forest that is merged from it. -/
theorem exists_place_of_mem_declaredLevel (surrounding : AreSurrounding around.names around.keys)
    (hlevel : AreLevel around.keys occurrences) (id handle : Nat) :
    ∀ x ∈ declaredLevel around.keys occurrences,
      ∃ place ∈ SymbolNode.placesAll around id handle (merge occurrences), x.key ∈ place.keys := by
  induction occurrences using merge.induct generalizing around id handle with
  | case1 occurrences ih =>
    intro x hx
    obtain ⟨o, ho, hx⟩ := List.mem_flatMap.1 hx
    have hname : o.name ∈ occurrences.map (·.name) := List.mem_map_of_mem ho
    have hnode : nodeOf occurrences o.name ∈ merge occurrences := by
      rw [merge_eq]
      exact List.mem_map_of_mem (List.mem_eraseDups.2 hname)
    rw [← SymbolNode.map_node_siblings around id handle (merge occurrences)] at hnode
    obtain ⟨⟨outer, id', handle', node⟩, htop, heq⟩ := List.mem_map.1 hnode
    have haround := SymbolNode.around_of_mem_siblings htop
    simp only at haround heq
    subst outer node
    have hkeys := keys_nodeOf around occurrences o.name id' handle'
    have hgroup := getElem?_groupKeys around.keys (mem_named.2 ⟨ho, rfl⟩)
    rcases List.mem_cons.1 hx with rfl | hx
    · refine ⟨_, SymbolNode.mem_placesAll_of_siblings _ _ _ _ htop, ?_⟩
      rw [hkeys]
      exact List.mem_of_getElem? hgroup
    · obtain ⟨hsurrounding, hlower⟩ := surrounding_inside surrounding hlevel hname id' handle'
      have hinner : x ∈ declaredLevel (groupKeys around.keys o.name occurrences)
          (level (named o.name occurrences)) := by
        rw [← declaredLevel_inner hgroup] at hx
        rw [declaredLevel, level, List.flatMap_assoc]
        exact List.mem_flatMap.2 ⟨o, mem_named.2 ⟨ho, rfl⟩, hx⟩
      rw [← hkeys] at hinner
      let top : Place := ⟨around, id', handle', nodeOf occurrences o.name⟩
      obtain ⟨place, hplace, hkey⟩ := @ih o.name (List.mem_eraseDups.2 hname) top.inside
        hsurrounding hlower (id' + 1) (handle' + top.node.entries.length) x hinner
      refine ⟨place, ?_, hkey⟩
      rw [SymbolNode.placesAll_eq]
      refine List.mem_flatMap.2 ⟨_, htop, List.mem_cons_of_mem _ ?_⟩
      exact hplace

end Occurrence

/-! ### Indexes -/

namespace SymbolIndex

/-- The names on the way to a node, read off its parents. -/
inductive Leads (index : SymbolIndex) : List String → Nat → Prop
  | root : Leads index [] 0
  | inside {names : List String} {parent id : Nat} {row : IndexNode} :
    Leads index names parent → index.node? id = some row → row.parent = some parent →
    Leads index (names ++ [row.name]) id

/-- The index has a symbol for each key of the declarations, which knows all of its declarations.
Its nodes, and the symbols of a node, stand in the order of their first declarations. -/
structure Merges (index : SymbolIndex) (declarations : List EffectiveDeclaration) : Prop where
  keys : Set.BijOn index.key? (Set.Iio index.symbolCount)
    {key | ∃ declaration ∈ declarations, key = some declaration.key}
  accessibility : ∀ handle info key,
    index.info? handle = some info → index.key? handle = some key →
      some info.accessibility = (declarations.find? (·.key = key)).map (·.accessibility)
  source : ∀ handle info key, index.info? handle = some info → index.key? handle = some key →
    info.origin = .source →
      info.locations.map some = (declarations.filter (·.key = key)).map (·.location?)
  metadata : ∀ handle info, index.info? handle = some info → info.origin = .metadata →
    info.locations = []
  nodes : ∀ id row, index.node? id = some row → ∃ names, index.Leads names id
    ∧ row.symbols.map index.key?
      = ((declarations.map (·.key)).filter (·.names = names)).eraseDups.map some
    ∧ List.Forall₂ index.Leads
      ((declarations.map (·.key.names)).filter (·.dropLast = names)).eraseDups row.children

variable {index : SymbolIndex} {declarations : List EffectiveDeclaration}

theorem leads_of_mem_places : ∀ place ∈ index.places, index.Leads place.names place.id := by
  refine index.places_induction ?_ ?_
  · intro place hplace
    have haround := around_of_mem_topPlaces hplace
    have hrow := index.node?_of_mem_places (index.topPlaces_subset hplace)
    rw [Place.names, haround]
    exact .inside .root hrow (by rw [Place.row, haround]; rfl)
  · intro outer houter ih place hplace
    have haround := Place.around_of_mem_children hplace
    have hrow := index.node?_of_mem_places (index.children_subset houter hplace)
    rw [Place.names, haround]
    exact .inside ih hrow (by rw [Place.row, haround]; rfl)

theorem forall₂_leads {places : List Place} (h : ∀ place ∈ places, place ∈ index.places) :
    List.Forall₂ index.Leads (places.map (·.names)) (places.map (·.id)) := by
  rw [List.forall₂_map_left_iff, List.forall₂_map_right_iff, List.forall₂_same]
  exact fun place hplace => leads_of_mem_places place (h place hplace)

section

variable (wellFormed : index.WellFormed) (represents : ∀ place ∈ index.places,
  place.Represents declarations)

include wellFormed

theorem map_key?_symbols {place : Place} (hplace : place ∈ index.places) :
    place.row.symbols.map index.key? = place.keys.map some := by
  apply List.ext_getElem (by simp [Place.row])
  intro k h _
  have hk : k < place.keys.length := by simpa [Place.row] using h
  have hkey := key?_of_mem_places wellFormed hplace (List.getElem?_eq_getElem hk)
  simpa [Place.row] using hkey

include represents

theorem bijOn_key? (unambiguous : index.Unambiguous)
    (complete : ∀ x ∈ declarations, ∃ place ∈ index.places, x.key ∈ place.keys) :
    Set.BijOn index.key? (Set.Iio index.symbolCount)
      {key | ∃ declaration ∈ declarations, key = some declaration.key} := by
  refine ⟨fun handle hhandle => ?_, fun a ha b hb hab => ?_, ?_⟩
  · obtain ⟨key, hkey⟩ := exists_key?_iff.2 hhandle
    obtain ⟨place, hplace, k, rfl, hk⟩ := exists_place_of_key? wellFormed hkey
    have hmem := List.mem_of_getElem? hk
    rw [(represents place hplace).keys_eq, List.mem_eraseDups, List.mem_filter] at hmem
    obtain ⟨x, hx, rfl⟩ := List.mem_map.1 hmem.1
    exact ⟨x, hx, hkey⟩
  · obtain ⟨key, hkey⟩ := exists_key?_iff.2 ha
    have ha' := (resolve_eq_some_iff wellFormed unambiguous).2 hkey
    have hb' := (resolve_eq_some_iff wellFormed unambiguous).2 (hab.symm.trans hkey)
    exact Option.some.inj (ha'.symm.trans hb')
  · rintro _ ⟨x, hx, rfl⟩
    obtain ⟨place, hplace, hkey⟩ := complete x hx
    obtain ⟨k, hk⟩ := List.getElem?_of_mem hkey
    have hfound := key?_of_mem_places wellFormed hplace hk
    exact ⟨_, exists_key?_iff.1 ⟨_, hfound⟩, hfound⟩

/-- What the symbol of a key knows of the declarations of the key. -/
theorem info_of_key? {handle : Nat} {info : SymbolInfo} {key : SymbolKey}
    (hinfo : index.info? handle = some info) (hkey : index.key? handle = some key) :
    some info.accessibility = (declarations.find? (·.key = key)).map (·.accessibility)
      ∧ info.locations = (declarations.filter (·.key = key)).filterMap (·.location?) := by
  obtain ⟨place, hplace, k, entry, hentry, rfl, rfl⟩ := index.exists_place_of_info? hinfo
  have hget : place.keys[k]? = some (entry.signature.keyIn place.around.keys place.node.name) := by
    rw [Place.keys, List.getElem?_map, hentry]
    rfl
  obtain rfl := Option.some.inj (hkey.symm.trans (key?_of_mem_places wellFormed hplace hget))
  have hmem := List.mem_of_getElem? hentry
  have hplace := represents place hplace
  exact ⟨hplace.accessibility_eq entry hmem, hplace.locations_eq entry hmem⟩

end

end SymbolIndex

/-! ### Projects -/

namespace Project

theorem location?_isSome_of_mem_effective (project : Project) :
    ∀ x ∈ project.effective, x.location?.isSome = (x.key.origin == .source) := by
  intro x hx
  rcases List.mem_append.1 hx with hx | hx
  · obtain ⟨document, -, hx⟩ := List.mem_flatMap.1 hx
    obtain ⟨nested, -, rfl⟩ := List.mem_map.1 hx
    rfl
  · obtain ⟨reference, -, hx⟩ := List.mem_flatMap.1 hx
    obtain ⟨nested, -, rfl⟩ := List.mem_map.1 hx
    rfl

theorem names_ne_nil_of_mem_effective (project : Project) :
    ∀ x ∈ project.effective, x.key.names ≠ [] := by
  intro x hx
  rw [effective_eq] at hx
  obtain ⟨o, -, hx⟩ := List.mem_flatMap.1 hx
  rcases List.mem_cons.1 hx with rfl | hx
  · simp [Occurrence.own, Occurrence.key, Signature.keyIn, SymbolKey.names]
  · obtain ⟨segment, rest, h⟩ := prefix_of_mem_declaredAll _ _ _ _ x hx
    simp [SymbolKey.names, h]

theorem surrounding_root : AreSurrounding Surroundings.root.names Surroundings.root.keys where
  nodup := List.nodup_nil
  names_eq _ h := by cases h
  root _ := rfl

end Project

namespace SymbolIndex

theorem represents_build (project : Project) :
    ∀ place ∈ (build project).places, place.Represents project.effective := by
  rw [Project.effective_eq]
  exact Occurrence.represents_merge Project.surrounding_root project.level_occurrences 1 0

theorem complete_build (project : Project) :
    ∀ x ∈ project.effective, ∃ place ∈ (build project).places, x.key ∈ place.keys := by
  rw [Project.effective_eq]
  exact Occurrence.exists_place_of_mem_declaredLevel Project.surrounding_root
    project.level_occurrences 1 0

theorem names_topPlaces_build (project : Project) :
    (build project).topPlaces.map (·.names)
      = ((project.effective.map (·.key.names)).filter (·.dropLast = [])).eraseDups := by
  rw [topPlaces, SymbolNode.map_names_siblings, Project.effective_eq]
  exact Occurrence.names_merge Project.surrounding_root project.level_occurrences

theorem locations_of_source (project : Project) {handle : Nat} {info : SymbolInfo} {key : SymbolKey}
    (hinfo : (build project).info? handle = some info)
    (hkey : (build project).key? handle = some key) (horigin : info.origin = .source) :
    info.locations.map some
      = (project.effective.filter (·.key = key)).map (·.location?) := by
  rw [(info_of_key? (wellFormed_build project) (represents_build project) hinfo hkey).2,
    List.map_filterMap_some_eq_filter_map_isSome]
  apply List.filter_eq_self.2
  intro location hlocation
  obtain ⟨x, hx, rfl⟩ := List.mem_map.1 hlocation
  obtain ⟨hmem, hx⟩ := List.mem_filter.1 hx
  rw [project.location?_isSome_of_mem_effective x hmem, of_decide_eq_true hx,
    ← origin_of_key? hinfo hkey, horigin]
  rfl

theorem locations_of_metadata (project : Project) {handle : Nat} {info : SymbolInfo}
    (hinfo : (build project).info? handle = some info) (horigin : info.origin = .metadata) :
    info.locations = [] := by
  have hkey := key?_eq_some_iff.2 ⟨info, hinfo, rfl⟩
  rw [(info_of_key? (wellFormed_build project) (represents_build project) hinfo hkey).2,
    List.filterMap_eq_nil_iff]
  intro x hx
  obtain ⟨hmem, hx⟩ := List.mem_filter.1 hx
  have hnone := project.location?_isSome_of_mem_effective x hmem
  rw [of_decide_eq_true hx, horigin] at hnone
  cases hlocation : x.location? with
  | none => rfl
  | some location =>
    rw [hlocation] at hnone
    cases hnone

/-- The root has no symbols, and the first nodes of all below it. -/
theorem root_build (project : Project) {row : IndexNode}
    (hrow : (build project).node? 0 = some row) :
    row.symbols.map (build project).key?
        = ((project.effective.map (·.key)).filter (·.names = [])).eraseDups.map some
      ∧ List.Forall₂ (build project).Leads
        ((project.effective.map (·.key.names)).filter (·.dropLast = [])).eraseDups row.children := by
  obtain rfl := Option.some.inj (hrow.symm.trans (build project).node?_zero)
  constructor
  · have hnone : (project.effective.map (·.key)).filter (·.names = []) = [] := by
      apply List.filter_eq_nil_iff.2
      intro key hkey
      obtain ⟨x, hx, rfl⟩ := List.mem_map.1 hkey
      simpa using project.names_ne_nil_of_mem_effective x hx
    rw [hnone]
    rfl
  · rw [← names_topPlaces_build, ← SymbolNode.map_id_siblings .root 1 0]
    exact forall₂_leads fun place hplace => (build project).topPlaces_subset hplace

theorem row_build (project : Project) {place : Place} (hplace : place ∈ (build project).places) :
    place.row.symbols.map (build project).key?
        = ((project.effective.map (·.key)).filter (·.names = place.names)).eraseDups.map some
      ∧ List.Forall₂ (build project).Leads
        ((project.effective.map (·.key.names)).filter (·.dropLast = place.names)).eraseDups
          place.row.children := by
  have represents := represents_build project place hplace
  constructor
  · rw [map_key?_symbols (wellFormed_build project) hplace, represents.keys_eq]
  · rw [← represents.children_eq, Place.row,
      ← SymbolNode.map_id_siblings place.inside _ (place.handle + place.node.entries.length)]
    exact forall₂_leads fun inner hinner => (build project).children_subset hplace hinner

/-- The index of a project merges exactly its effective declarations. -/
theorem merges_build (project : Project) : (build project).Merges project.effective := by
  have wellFormed := wellFormed_build project
  have represents := represents_build project
  constructor
  · exact bijOn_key? wellFormed represents (unambiguous_build project) (complete_build project)
  · intro handle info key hinfo hkey
    exact (info_of_key? wellFormed represents hinfo hkey).1
  · intro handle info key hinfo hkey horigin
    exact locations_of_source project hinfo hkey horigin
  · intro handle info hinfo horigin
    exact locations_of_metadata project hinfo horigin
  · intro id row hrow
    cases id with
    | zero => exact ⟨[], .root, root_build project hrow⟩
    | succ id =>
      obtain ⟨place, hplace, rfl, hid⟩ := (build project).node?_succ_eq_some_iff.1 hrow
      have hleads := leads_of_mem_places place hplace
      rw [hid] at hleads
      exact ⟨place.names, hleads, row_build project hplace⟩

end SymbolIndex

end SymbolSearch
