import Mathlib.Data.List.Find
import Mathlib.Data.List.Induction
import SymbolSearch.Proofs.Forest.Shape

/-!
# Keys and handles

The key that is read off upward from a symbol is the one that its place gives it. Resolving a key
downward only ever follows symbols that have the beginnings of the key, and in an unambiguous index
it follows exactly one.
-/

namespace SymbolSearch

namespace SymbolIndex

variable {index : SymbolIndex}

/-! ### Reading keys off -/

/-- The segments of a symbol and of its containers. -/
def path (index : SymbolIndex) (handle : Nat) : List KeySegment :=
  index.segmentsUp (handle + 1) handle []

theorem segmentsUp_eq (wellFormed : index.WellFormed) {fuel handle : Nat} (hfuel : handle < fuel)
    (inner : List KeySegment) :
    index.segmentsUp fuel handle inner = index.path handle ++ inner := by
  induction handle using Nat.strongRecOn generalizing fuel inner with
  | ind handle ih =>
    obtain ⟨fuel, rfl⟩ := Nat.exists_eq_succ_of_ne_zero (Nat.ne_of_gt (Nat.zero_lt_of_lt hfuel))
    cases hinfo : index.info? handle with
    | none => simp [path, segmentsUp, hinfo]
    | some info =>
      cases hparent : info.parent with
      | none => simp [path, segmentsUp, hinfo, hparent]
      | some parent =>
        have hlt := parent_lt wellFormed hinfo hparent
        have up : index.segmentsUp (fuel + 1) handle inner
            = index.segmentsUp fuel parent (index.segment info :: inner) := by
          simp [segmentsUp, hinfo, hparent]
        have here : index.path handle = index.segmentsUp handle parent [index.segment info] := by
          simp [path, segmentsUp, hinfo, hparent]
        rw [up, here, ih parent hlt (by omega), ih parent hlt hlt]
        simp

theorem path_eq (wellFormed : index.WellFormed) {handle : Nat} {info : SymbolInfo}
    (h : index.info? handle = some info) :
    index.path handle
      = (info.parent.map index.path).getD [] ++ [index.segment info] := by
  cases hparent : info.parent with
  | none => simp [path, segmentsUp, h, hparent]
  | some parent =>
    have hlt := parent_lt wellFormed h hparent
    have up : index.path handle = index.segmentsUp handle parent [index.segment info] := by
      simp [path, segmentsUp, h, hparent]
    rw [up, segmentsUp_eq wellFormed hlt]
    rfl

theorem key?_eq_some_iff {handle : Nat} {key : SymbolKey} :
    index.key? handle = some key
      ↔ ∃ info, index.info? handle = some info ∧ key = ⟨index.path handle, info.origin⟩ := by
  simp only [key?, Option.map_eq_some_iff]
  constructor
  · rintro ⟨info, hinfo, rfl⟩
    exact ⟨info, hinfo, rfl⟩
  · rintro ⟨info, hinfo, rfl⟩
    exact ⟨info, hinfo, rfl⟩

theorem exists_key?_iff {handle : Nat} :
    (∃ key, index.key? handle = some key) ↔ handle < index.symbolCount := by
  have hinfo : (∃ info, index.info? handle = some info) ↔ handle < index.symbolCount :=
    ⟨fun ⟨_, h⟩ => (Array.getElem?_eq_some_iff.1 h).1, fun h => ⟨_, Array.getElem?_eq_getElem h⟩⟩
  rw [← hinfo]
  constructor
  · rintro ⟨key, hkey⟩
    obtain ⟨info, h, -⟩ := key?_eq_some_iff.1 hkey
    exact ⟨info, h⟩
  · rintro ⟨info, h⟩
    exact ⟨_, key?_eq_some_iff.2 ⟨info, h, rfl⟩⟩

theorem origin_of_key? {handle : Nat} {info : SymbolInfo} {key : SymbolKey}
    (hinfo : index.info? handle = some info) (hkey : index.key? handle = some key) :
    info.origin = key.origin := by
  obtain ⟨info', hinfo', rfl⟩ := key?_eq_some_iff.1 hkey
  rw [Option.some.inj (hinfo.symm.trans hinfo')]

theorem segment_of_mem_places {place : Place} (hplace : place ∈ index.places) (entry : Entry) :
    index.segment (SymbolNode.infoOf place.around.first place.id entry)
      = ⟨entry.signature.kind, place.node.name, entry.signature.arity,
          entry.signature.parameters⟩ := by
  simp [segment, SymbolNode.infoOf, index.nodeName_of_mem_places hplace]

theorem path_of_container (wellFormed : index.WellFormed) {place : Place}
    (hplace : place ∈ index.places) {k : Nat} {entry : Entry}
    (hentry : place.node.entries[k]? = some entry)
    (hkeys : ∀ position key, place.around.keys[position]? = some key →
      index.path (place.around.first + position) = key.segments) :
    index.path (place.handle + k)
      = (entry.signature.keyIn place.around.keys place.node.name).segments := by
  rw [path_eq wellFormed (index.info?_of_mem_places hplace hentry),
    segment_of_mem_places hplace]
  have fits := fits_of_getElem? wellFormed hplace hentry
  cases hcontainer : entry.signature.container with
  | none => simp [SymbolNode.infoOf, Signature.keyIn, containerPath, hcontainer]
  | some position =>
    rw [Signature.Fits, hcontainer] at fits
    have hkey := List.getElem?_eq_getElem (show position < place.around.keys.length from fits)
    simp [SymbolNode.infoOf, Signature.keyIn, containerPath, hcontainer, hkey,
      hkeys position _ hkey]

/-- Every symbol has the key that its place gives it. -/
theorem path_of_mem_places (wellFormed : index.WellFormed) :
    ∀ place ∈ index.places, ∀ k key, place.keys[k]? = some key →
      index.path (place.handle + k) = key.segments := by
  refine index.places_induction (motive := fun place => ∀ k key, place.keys[k]? = some key →
    index.path (place.handle + k) = key.segments) ?_ ?_
  · intro place hplace k key hkey
    obtain ⟨entry, hentry, rfl⟩ := Option.map_eq_some_iff.1 (List.getElem?_map ▸ hkey)
    refine path_of_container wellFormed (index.topPlaces_subset hplace) hentry ?_
    simp [around_of_mem_topPlaces hplace, Surroundings.root]
  · intro outer houter ih place hplace k key hkey
    obtain ⟨entry, hentry, rfl⟩ := Option.map_eq_some_iff.1 (List.getElem?_map ▸ hkey)
    refine path_of_container wellFormed (index.children_subset houter hplace) hentry ?_
    rw [Place.around_of_mem_children hplace]
    exact ih

theorem key?_of_mem_places (wellFormed : index.WellFormed) {place : Place}
    (hplace : place ∈ index.places) {k : Nat} {key : SymbolKey}
    (hkey : place.keys[k]? = some key) : index.key? (place.handle + k) = some key := by
  have hpath := path_of_mem_places wellFormed place hplace k key hkey
  obtain ⟨entry, hentry, rfl⟩ := Option.map_eq_some_iff.1 (List.getElem?_map ▸ hkey)
  refine key?_eq_some_iff.2 ⟨_, index.info?_of_mem_places hplace hentry, ?_⟩
  rw [hpath]
  rfl

theorem exists_place_of_key? (wellFormed : index.WellFormed) {handle : Nat} {key : SymbolKey}
    (h : index.key? handle = some key) :
    ∃ place ∈ index.places, ∃ k, handle = place.handle + k ∧ place.keys[k]? = some key := by
  obtain ⟨info, hinfo, -⟩ := key?_eq_some_iff.1 h
  obtain ⟨place, hplace, k, entry, hentry, rfl, -⟩ := index.exists_place_of_info? hinfo
  have hkey : place.keys[k]? = some (entry.signature.keyIn place.around.keys place.node.name) := by
    simp [Place.keys, hentry]
  refine ⟨place, hplace, k, rfl, ?_⟩
  rw [← h, key?_of_mem_places wellFormed hplace hkey, hkey]

/-! ### Resolving keys -/

attribute [ext] Candidate

/-- The place of a level with a name is found by that name. -/
theorem childNamed?_eq {id : Nat} {row : IndexNode} (hrow : index.node? id = some row)
    {level : List Place} (hchildren : row.children = level.map (·.id))
    (hlevel : ∀ place ∈ level, place ∈ index.places) (name : String) :
    index.childNamed? id name = (level.find? (·.node.name == name)).map (·.id) := by
  have hnames : level.find? (fun place => index.nodeName place.id == name)
      = level.find? (·.node.name == name) :=
    List.find?_congr fun place hplace => by
      rw [index.nodeName_of_mem_places (hlevel place hplace)]
  simp only [childNamed?, hrow, bind, Option.bind_some, hchildren, List.find?_map,
    Function.comp_def, hnames]

theorem childNamed?_root (name : String) :
    index.childNamed? 0 name = (index.topPlaces.find? (·.node.name == name)).map (·.id) :=
  childNamed?_eq index.node?_zero (SymbolNode.map_id_siblings _ _ _ _).symm
    (fun _ h => index.topPlaces_subset h) name

theorem childNamed?_of_mem_places {outer : Place} (houter : outer ∈ index.places)
    (name : String) :
    index.childNamed? outer.id name
      = (outer.children.find? (·.node.name == name)).map (·.id) :=
  childNamed?_eq (index.node?_of_mem_places houter) (SymbolNode.map_id_siblings _ _ _ _).symm
    (fun _ h => index.children_subset houter h) name

theorem name_of_childNamed? {node child : Nat} {name : String}
    (h : index.childNamed? node name = some child) : index.nodeName child = name := by
  cases hrow : index.node? node with
  | none => simp [childNamed?, hrow] at h
  | some row =>
    simp only [childNamed?, hrow, bind, Option.bind_some] at h
    have hname := List.find?_some (p := fun child => index.nodeName child == name) h
    exact LawfulBEq.eq_of_beq hname

/-- The symbols that a node lists are those of its place. -/
theorem exists_place_of_mem_symbols {node handle : Nat}
    (h : handle ∈ ((index.node? node).map (·.symbols)).getD []) :
    ∃ place ∈ index.places, place.id = node
      ∧ ∃ k entry, place.node.entries[k]? = some entry ∧ handle = place.handle + k := by
  cases hrow : index.node? node with
  | none => simp [hrow] at h
  | some row =>
    simp only [hrow, Option.map_some, Option.getD_some] at h
    cases node with
    | zero =>
      rw [index.node?_zero] at hrow
      cases hrow
      cases h
    | succ id =>
      obtain ⟨place, hplace, rfl, hid⟩ := index.node?_succ_eq_some_iff.1 hrow
      obtain ⟨k, hk, rfl⟩ := List.mem_range'.1 h
      exact ⟨place, hplace, hid, k, _, List.getElem?_eq_getElem hk, by simp⟩

theorem mem_step {origin : SymbolOrigin} {segment : KeySegment} {candidate found : Candidate}
    (h : found ∈ index.step origin segment candidate) :
    index.childNamed? candidate.node segment.name = some found.node
      ∧ ∃ handle, found.symbol = some handle
        ∧ handle ∈ ((index.node? found.node).map (·.symbols)).getD []
        ∧ index.isSegmentOf origin segment candidate.symbol handle = true := by
  unfold step at h
  split at h
  · cases h
  · rename_i child hchild
    obtain ⟨handle, hhandle, rfl⟩ := List.mem_map.1 h
    obtain ⟨hmem, hsegment⟩ := List.mem_filter.1 hhandle
    exact ⟨hchild, handle, rfl, hmem, hsegment⟩

theorem isSegmentOf_iff {origin : SymbolOrigin} {segment : KeySegment} {container : Option Nat}
    {handle : Nat} :
    index.isSegmentOf origin segment container handle = true
      ↔ ∃ info, index.info? handle = some info ∧ info.parent = container ∧ info.origin = origin
        ∧ info.kind = segment.kind ∧ info.arity = segment.arity
        ∧ info.parameters = segment.parameters := by
  unfold isSegmentOf
  cases index.info? handle with
  | none => simp
  | some info => simp [and_assoc]

/-- What a candidate has been followed for: the root for nothing, a symbol for its key. -/
def Follows (index : SymbolIndex) (key : SymbolKey) (candidate : Candidate) : Prop :=
  match candidate.symbol with
  | none => key.segments = []
  | some handle => index.key? handle = some key

theorem candidates_append (origin : SymbolOrigin) (segments : List KeySegment)
    (segment : KeySegment) :
    index.candidates ⟨segments ++ [segment], origin⟩
      = (index.candidates ⟨segments, origin⟩).flatMap (index.step origin segment) := by
  simp [candidates, List.foldl_append]

theorem follows_of_mem_step (wellFormed : index.WellFormed) {origin : SymbolOrigin}
    {segments : List KeySegment} {segment : KeySegment} {candidate found : Candidate}
    (hcandidate : index.Follows ⟨segments, origin⟩ candidate)
    (h : found ∈ index.step origin segment candidate) :
    index.Follows ⟨segments ++ [segment], origin⟩ found := by
  obtain ⟨hchild, handle, hsymbol, hmem, hsegment⟩ := mem_step h
  obtain ⟨place, hplace, hid, k, entry, hentry, hhandle⟩ := exists_place_of_mem_symbols hmem
  obtain ⟨info, hinfo, hparent, horigin, hkind, harity, hparameters⟩ :=
    isSegmentOf_iff.1 hsegment
  have hnode : info.node = found.node := by
    rw [hhandle, index.info?_of_mem_places hplace hentry] at hinfo
    cases hinfo
    exact hid
  have hlast : index.segment info = segment := by
    simp only [SymbolIndex.segment, hnode, name_of_childNamed? hchild, hkind, harity, hparameters]
  have hbefore : (info.parent.map index.path).getD [] = segments := by
    rw [hparent]
    unfold Follows at hcandidate
    cases hcontainer : candidate.symbol with
    | none =>
      rw [hcontainer] at hcandidate
      exact hcandidate.symm
    | some container =>
      rw [hcontainer] at hcandidate
      obtain ⟨_, -, hkey⟩ := key?_eq_some_iff.1 hcandidate
      exact (congrArg SymbolKey.segments hkey).symm
  simp only [Follows, hsymbol]
  refine key?_eq_some_iff.2 ⟨info, hinfo, ?_⟩
  rw [path_eq wellFormed hinfo, hbefore, hlast, horigin]

/-- Every candidate for a key has that key. -/
theorem follows_of_mem_candidates (wellFormed : index.WellFormed) (origin : SymbolOrigin)
    (segments : List KeySegment) :
    ∀ candidate ∈ index.candidates ⟨segments, origin⟩,
      index.Follows ⟨segments, origin⟩ candidate := by
  induction segments using List.reverseRecOn with
  | nil =>
    intro candidate h
    obtain rfl := List.mem_singleton.1 h
    rfl
  | append_singleton segments segment ih =>
    intro candidate h
    rw [candidates_append] at h
    obtain ⟨before, hbefore, hstep⟩ := List.mem_flatMap.1 h
    exact follows_of_mem_step wellFormed (ih before hbefore) hstep

/-- A key is only ever resolved to a symbol that has it. -/
theorem key?_of_resolve (wellFormed : index.WellFormed) {key : SymbolKey} {handle : Nat}
    (h : index.resolveKey key = some handle) : index.key? handle = some key := by
  obtain ⟨candidate, hhead, hsymbol⟩ := Option.bind_eq_some_iff.1 h
  have hfollows := follows_of_mem_candidates wellFormed key.origin key.segments candidate
    (List.mem_of_mem_head? hhead)
  rwa [Follows, hsymbol] at hfollows

theorem mem_step_of_mem_level {level : List Place} {place : Place}
    (hplace : place ∈ index.places) {candidate : Candidate}
    (hchild : index.childNamed? candidate.node place.node.name
      = (level.find? (·.node.name == place.node.name)).map (·.id))
    (hfind : level.find? (·.node.name == place.node.name) = some place) {k : Nat} {entry : Entry}
    (hentry : place.node.entries[k]? = some entry)
    (hcontainer : entry.signature.container.map (place.around.first + ·) = candidate.symbol) :
    ⟨place.id, some (place.handle + k)⟩ ∈ index.step entry.signature.origin
      ⟨entry.signature.kind, place.node.name, entry.signature.arity, entry.signature.parameters⟩
      candidate := by
  rw [hfind] at hchild
  have hmem : place.handle + k ∈ List.range' place.handle place.node.entries.length :=
    List.mem_range'_1.2 ⟨by omega, by
      have := (List.getElem?_eq_some_iff.1 hentry).1
      omega⟩
  have hsegment : index.isSegmentOf entry.signature.origin
      ⟨entry.signature.kind, place.node.name, entry.signature.arity, entry.signature.parameters⟩
      candidate.symbol (place.handle + k) = true :=
    isSegmentOf_iff.2 ⟨_, index.info?_of_mem_places hplace hentry, hcontainer, rfl, rfl, rfl, rfl⟩
  simp only [step, hchild, Option.map_some, index.node?_of_mem_places hplace, Place.row,
    Option.getD_some]
  exact List.mem_map.2 ⟨_, List.mem_filter.2 ⟨hmem, hsegment⟩, rfl⟩

/-- The symbol that contains a symbol has the same origin and the same key but for the last
segment. -/
theorem keyIn_of_container (unambiguous : index.Unambiguous) {place : Place}
    (hplace : place ∈ index.places) {k : Nat} {entry : Entry}
    (hentry : place.node.entries[k]? = some entry) {position : Nat}
    (hcontainer : entry.signature.container = some position) {key : SymbolKey}
    (hkey : place.around.keys[position]? = some key) :
    entry.signature.keyIn place.around.keys place.node.name
      = ⟨key.segments ++ [⟨entry.signature.kind, place.node.name, entry.signature.arity,
          entry.signature.parameters⟩], key.origin⟩ := by
  have agrees := agrees_of_getElem? unambiguous hplace hentry position hcontainer
  rw [List.getElem?_map, hkey] at agrees
  simp only [Signature.keyIn, containerPath, hcontainer, Option.bind_some, hkey, Option.map_some,
    Option.getD_some, Option.some.inj agrees]

/-- On the first level, and only there, a symbol has no container. -/
theorem container_of_topPlaces (wellFormed : index.WellFormed) {place : Place}
    (htop : place ∈ index.topPlaces) {k : Nat} {entry : Entry}
    (hentry : place.node.entries[k]? = some entry) : entry.signature.container = none := by
  have fits := fits_of_getElem? wellFormed (index.topPlaces_subset htop) hentry
  cases hcontainer : entry.signature.container with
  | none => rfl
  | some position =>
    rw [Signature.Fits, hcontainer, around_of_mem_topPlaces htop] at fits
    exact absurd fits (Nat.not_lt_zero _)

theorem container_of_children (wellFormed : index.WellFormed) {outer place : Place}
    (houter : outer ∈ index.places) (hchild : place ∈ outer.children) {k : Nat} {entry : Entry}
    (hentry : place.node.entries[k]? = some entry) :
    ∃ position key, entry.signature.container = some position
      ∧ outer.keys[position]? = some key := by
  have fits := fits_of_getElem? wellFormed (index.children_subset houter hchild) hentry
  rw [Place.around_of_mem_children hchild, Place.inside] at fits
  cases hcontainer : entry.signature.container with
  | none =>
    rw [Signature.Fits, hcontainer, Place.length_keys] at fits
    exact absurd (List.length_eq_zero_iff.1 fits) (entries_ne_nil wellFormed houter)
  | some position =>
    rw [Signature.Fits, hcontainer] at fits
    exact ⟨position, _, rfl, List.getElem?_eq_getElem fits⟩

theorem mem_candidates_of_topPlaces (wellFormed : index.WellFormed)
    (unambiguous : index.Unambiguous) {place : Place} (htop : place ∈ index.topPlaces) {k : Nat}
    {entry : Entry} (hentry : place.node.entries[k]? = some entry) :
    ⟨place.id, some (place.handle + k)⟩
      ∈ index.candidates (entry.signature.keyIn place.around.keys place.node.name) := by
  have hnone := container_of_topPlaces wellFormed htop hentry
  have hroot : (⟨0, none⟩ : Candidate) ∈ index.candidates ⟨[], entry.signature.origin⟩ :=
    List.mem_singleton_self _
  simp only [Signature.keyIn, containerPath, hnone, Option.bind_none, Option.map_none,
    Option.getD_none, candidates_append]
  refine List.mem_flatMap.2 ⟨_, hroot, mem_step_of_mem_level (index.topPlaces_subset htop)
    (childNamed?_root _) (SymbolNode.find?_name_siblings unambiguous htop) hentry ?_⟩
  rw [hnone]
  rfl

theorem mem_candidates_of_children (unambiguous : index.Unambiguous) {outer place : Place}
    (houter : outer ∈ index.places) (hchild : place ∈ outer.children) {k : Nat} {entry : Entry}
    (hentry : place.node.entries[k]? = some entry) {position : Nat}
    (hcontainer : entry.signature.container = some position) {key : SymbolKey}
    (hkey : outer.keys[position]? = some key)
    (hmem : ⟨outer.id, some (outer.handle + position)⟩ ∈ index.candidates key) :
    ⟨place.id, some (place.handle + k)⟩
      ∈ index.candidates (entry.signature.keyIn place.around.keys place.node.name) := by
  have hplace := index.children_subset houter hchild
  have haround := Place.around_of_mem_children hchild
  have hkey' : place.around.keys[position]? = some key := by rw [haround]; exact hkey
  have horigin : key.origin = entry.signature.origin := by
    have agrees := agrees_of_getElem? unambiguous hplace hentry position hcontainer
    rw [List.getElem?_map, hkey'] at agrees
    exact Option.some.inj agrees
  rw [keyIn_of_container unambiguous hplace hentry hcontainer hkey', candidates_append]
  refine List.mem_flatMap.2 ⟨_, hmem, ?_⟩
  rw [horigin]
  refine mem_step_of_mem_level hplace (childNamed?_of_mem_places houter _)
    (Place.find?_name_children (unambiguous_of_mem_places unambiguous outer houter) hchild)
    hentry ?_
  rw [hcontainer, haround]
  rfl

/-- Every symbol of an unambiguous index is a candidate for its key. -/
theorem mem_candidates_of_mem_places (wellFormed : index.WellFormed)
    (unambiguous : index.Unambiguous) :
    ∀ place ∈ index.places, ∀ k key, place.keys[k]? = some key →
      ⟨place.id, some (place.handle + k)⟩ ∈ index.candidates key := by
  refine index.places_induction (motive := fun place => ∀ k key, place.keys[k]? = some key →
    ⟨place.id, some (place.handle + k)⟩ ∈ index.candidates key) ?_ ?_
  · intro place htop k key hkey
    obtain ⟨entry, hentry, rfl⟩ := Option.map_eq_some_iff.1 (List.getElem?_map ▸ hkey)
    exact mem_candidates_of_topPlaces wellFormed unambiguous htop hentry
  · intro outer houter ih place hchild k key hkey
    obtain ⟨entry, hentry, rfl⟩ := Option.map_eq_some_iff.1 (List.getElem?_map ▸ hkey)
    obtain ⟨position, container, hcontainer, hposition⟩ :=
      container_of_children wellFormed houter hchild hentry
    exact mem_candidates_of_children unambiguous houter hchild hentry hcontainer hposition
      (ih position container hposition)

/-- The symbols of a node have different signatures, so that one segment leads to at most one. -/
theorem step_subsingleton (unambiguous : index.Unambiguous) {origin : SymbolOrigin}
    {segment : KeySegment} {candidate found other : Candidate}
    (hfound : found ∈ index.step origin segment candidate)
    (hother : other ∈ index.step origin segment candidate) : found = other := by
  obtain ⟨hchild, handle, hsymbol, hmem, hsegment⟩ := mem_step hfound
  obtain ⟨hchild', handle', hsymbol', hmem', hsegment'⟩ := mem_step hother
  have hnode : found.node = other.node := Option.some.inj (hchild.symm.trans hchild')
  obtain ⟨place, hplace, hid, k, entry, hentry, rfl⟩ := exists_place_of_mem_symbols hmem
  obtain ⟨place', hplace', hid', k', entry', hentry', rfl⟩ := exists_place_of_mem_symbols hmem'
  obtain rfl : place = place' :=
    index.eq_of_id_eq hplace hplace' (hid.trans (hnode.trans hid'.symm))
  obtain ⟨info, hinfo, hparent, horigin, hkind, harity, hparameters⟩ :=
    isSegmentOf_iff.1 hsegment
  obtain ⟨info', hinfo', hparent', horigin', hkind', harity', hparameters'⟩ :=
    isSegmentOf_iff.1 hsegment'
  obtain rfl := Option.some.inj ((index.info?_of_mem_places hplace hentry).symm.trans hinfo)
  obtain rfl := Option.some.inj ((index.info?_of_mem_places hplace hentry').symm.trans hinfo')
  have hcontainer : entry.signature.container = entry'.signature.container :=
    Option.map_injective (fun _ _ h => Nat.add_left_cancel h) (hparent.trans hparent'.symm)
  have hsignature : entry.signature = entry'.signature :=
    Signature.ext (hkind.trans hkind'.symm) (harity.trans harity'.symm)
      (hparameters.trans hparameters'.symm) (horigin.trans horigin'.symm) hcontainer
  have hk : k = k' := by
    have hlt : k < (place.node.entries.map (·.signature)).length := by
      rw [List.length_map]
      exact (List.getElem?_eq_some_iff.1 hentry).1
    refine (List.getElem?_inj hlt (signatures_nodup unambiguous hplace)).1 ?_
    simp [hentry, hentry', hsignature]
  rw [Candidate.ext_iff]
  exact ⟨hnode, hsymbol.trans (hk ▸ hsymbol'.symm)⟩

/-- A key has at most one candidate in an unambiguous index. -/
theorem candidates_subsingleton (unambiguous : index.Unambiguous) (origin : SymbolOrigin)
    (segments : List KeySegment) :
    ∀ found ∈ index.candidates ⟨segments, origin⟩, ∀ other ∈ index.candidates ⟨segments, origin⟩,
      found = other := by
  induction segments using List.reverseRecOn with
  | nil =>
    intro found hfound other hother
    exact (List.mem_singleton.1 hfound).trans (List.mem_singleton.1 hother).symm
  | append_singleton segments segment ih =>
    intro found hfound other hother
    rw [candidates_append] at hfound hother
    obtain ⟨before, hbefore, hfound⟩ := List.mem_flatMap.1 hfound
    obtain ⟨before', hbefore', hother⟩ := List.mem_flatMap.1 hother
    obtain rfl := ih before hbefore before' hbefore'
    exact step_subsingleton unambiguous hfound hother

/-- In an unambiguous index keys and symbols determine each other. -/
theorem resolve_eq_some_iff (wellFormed : index.WellFormed) (unambiguous : index.Unambiguous)
    {key : SymbolKey} {handle : Nat} :
    index.resolveKey key = some handle ↔ index.key? handle = some key := by
  refine ⟨key?_of_resolve wellFormed, fun h => ?_⟩
  obtain ⟨place, hplace, k, rfl, hkey⟩ := exists_place_of_key? wellFormed h
  have hmem := mem_candidates_of_mem_places wellFormed unambiguous place hplace k key hkey
  unfold resolveKey
  cases hlist : index.candidates key with
  | nil =>
    rw [hlist] at hmem
    cases hmem
  | cons head rest =>
    have hhead : head ∈ index.candidates key := hlist ▸ List.mem_cons_self
    rw [candidates_subsingleton unambiguous _ _ head hhead _ hmem]
    rfl

end SymbolIndex

end SymbolSearch
