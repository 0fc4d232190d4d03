import SymbolSearch.Proofs.Forest.Keys
import SymbolSearch.Proofs.Merge.Level

/-!
# Merged declarations

What the places of a merged forest tell about the effective declarations that were merged: which
keys a node has and in which order, what each symbol knows of its declarations, and in which order
the nodes stand.
-/

namespace SymbolSearch

/-- What a place of an index has to say about effective declarations. -/
structure Place.Represents (declarations : List EffectiveDeclaration) (place : Place) : Prop where
  keys_eq : place.keys
    = ((declarations.map (·.key)).filter (·.names = place.names)).eraseDups
  locations_eq : ∀ entry ∈ place.node.entries, entry.locations
    = (declarations.filter
        (·.key = entry.signature.keyIn place.around.keys place.node.name)).filterMap (·.location?)
  accessibility_eq : ∀ entry ∈ place.node.entries, some entry.accessibility
    = (declarations.find?
        (·.key = entry.signature.keyIn place.around.keys place.node.name)).map (·.accessibility)
  children_eq : place.children.map (·.names)
    = ((declarations.map (·.key.names)).filter (·.dropLast = place.names)).eraseDups

/-- A path all of whose names but the last are known. -/
theorem exists_last_of_dropLast_eq {path names : List String} {name : String}
    (h : path.dropLast = names ++ [name]) : ∃ last, path = names ++ [name, last] := by
  have hne : path ≠ [] := by
    rintro rfl
    exact List.append_ne_nil_of_right_ne_nil _ (List.cons_ne_nil _ _) h.symm
  refine ⟨path.getLast hne, ?_⟩
  have hpath := List.dropLast_concat_getLast hne
  rw [h, List.append_assoc] at hpath
  exact hpath.symm

/-! ### Where declarations are found -/

mutual

theorem prefix_of_mem_declared (origin : SymbolOrigin) (document : Option DocumentId)
    (path : List KeySegment) :
    ∀ declaration : Declaration, ∀ x ∈ declaration.declared origin document path,
      ∃ segment rest, x.key.segments = path ++ segment :: rest
  | ⟨name, kind, accessibility, arity, parameters, range, children⟩, x, hx => by
    rw [Declaration.declared] at hx
    split at hx
    · cases hx
    · split at hx
      · exact prefix_of_mem_declaredAll origin document path children x hx
      · rcases List.mem_cons.1 hx with rfl | hx
        · exact ⟨_, [], rfl⟩
        · obtain ⟨segment, rest, h⟩ := prefix_of_mem_declaredAll origin document _ children x hx
          exact ⟨_, segment :: rest, by rw [h, List.append_assoc]; rfl⟩

theorem prefix_of_mem_declaredAll (origin : SymbolOrigin) (document : Option DocumentId)
    (path : List KeySegment) :
    ∀ declarations : List Declaration, ∀ x ∈ declaredAll origin document path declarations,
      ∃ segment rest, x.key.segments = path ++ segment :: rest
  | declaration :: rest, x, hx => by
    rcases List.mem_append.1 hx with hx | hx
    · exact prefix_of_mem_declared origin document path declaration x hx
    · exact prefix_of_mem_declaredAll origin document path rest x hx

end

namespace Occurrence

variable {names : List String} {around : List SymbolKey} {occurrences : List Occurrence}

theorem names_key (surrounding : AreSurrounding names around)
    (level : AreLevel around occurrences) {o : Occurrence} (ho : o ∈ occurrences) :
    (o.key around).names = names ++ [o.name] :=
  names_keyIn surrounding (level.fits o ho) o.name

theorem names_of_mem_deeper (surrounding : AreSurrounding names around)
    (level : AreLevel around occurrences) {o : Occurrence} (ho : o ∈ occurrences)
    {x : EffectiveDeclaration} (hx : x ∈ o.deeper around) :
    ∃ inner rest, x.key.names = names ++ o.name :: inner :: rest := by
  obtain ⟨segment, rest, h⟩ := prefix_of_mem_declaredAll _ _ _ _ x hx
  have hnames := names_key surrounding level ho
  rw [SymbolKey.names] at hnames
  exact ⟨segment.name, rest.map (·.name), by simp [SymbolKey.names, h, hnames]⟩

/-- A property of nothing deeper is looked for among the occurrences themselves. -/
theorem filter_declaredLevel_own {holds : EffectiveDeclaration → Bool}
    (h : ∀ o ∈ occurrences, ∀ x ∈ o.deeper around, holds x = false) :
    (declaredLevel around occurrences).filter holds
      = (occurrences.filter (fun o => holds (o.own around))).map (·.own around) := by
  induction occurrences with
  | nil => rfl
  | cons o rest ih =>
    have hdeeper : (o.deeper around).filter holds = [] :=
      List.filter_eq_nil_iff.2 fun x hx => by
        rw [h o List.mem_cons_self x hx]
        exact Bool.false_ne_true
    have hrest := ih fun o ho => h o (List.mem_cons_of_mem _ ho)
    rw [declaredLevel] at hrest
    rw [declaredLevel, List.flatMap_cons, List.filter_append, hrest, declared, List.filter_cons,
      hdeeper, List.filter_cons]
    split <;> rfl

/-- A property of what is inside the node of a name is looked for on the level below it. -/
theorem filter_declaredLevel_inner (surrounding : AreSurrounding names around)
    (level : AreLevel around occurrences) (name : String) {holds : EffectiveDeclaration → Bool}
    (h : ∀ x, holds x = true → ∃ inner rest, x.key.names = names ++ name :: inner :: rest) :
    (declaredLevel around occurrences).filter holds
      = (declaredLevel (groupKeys around name occurrences)
          (Occurrence.level (named name occurrences))).filter holds := by
  have here {o : Occurrence} (ho : o ∈ occurrences) : holds (o.own around) = false := by
    apply Bool.eq_false_iff.2
    intro hown
    obtain ⟨inner, rest, hnames⟩ := h _ hown
    rw [own, names_key surrounding level ho] at hnames
    simp at hnames
  have elsewhere {o : Occurrence} (ho : o ∈ occurrences) (hne : o.name ≠ name) :
      (o.deeper around).filter holds = [] := by
    apply List.filter_eq_nil_iff.2
    intro x hx hholds
    obtain ⟨inner, rest, hnames⟩ := h x hholds
    obtain ⟨inner', rest', hnames'⟩ := names_of_mem_deeper surrounding level ho hx
    rw [hnames] at hnames'
    simp only [List.append_cancel_left_eq, List.cons.injEq] at hnames'
    exact hne hnames'.1.symm
  have inside {o : Occurrence} (ho : o ∈ named name occurrences) :
      declaredLevel (groupKeys around name occurrences)
        (o.inner ((signatures (named name occurrences)).idxOf o.signature)) = o.deeper around :=
    declaredLevel_inner (getElem?_groupKeys around ho)
  have below : declaredLevel (groupKeys around name occurrences)
      (Occurrence.level (named name occurrences))
        = (named name occurrences).flatMap (·.deeper around) := by
    rw [declaredLevel, Occurrence.level, List.flatMap_assoc]
    exact List.flatMap_congr fun o ho => inside ho
  have each (l : List Occurrence) (hl : ∀ o ∈ l, o ∈ occurrences) :
      (l.flatMap (declared around)).filter holds
        = ((named name l).flatMap (·.deeper around)).filter holds := by
    induction l with
    | nil => rfl
    | cons o rest ih =>
      have ho := hl o List.mem_cons_self
      have hrest := ih fun o ho => hl o (List.mem_cons_of_mem _ ho)
      have hnamed : named name (o :: rest)
          = if o.name == name then o :: named name rest else named name rest := List.filter_cons
      rw [List.flatMap_cons, List.filter_append, hrest, declared, List.filter_cons, here ho,
        if_neg Bool.false_ne_true, hnamed]
      by_cases hname : o.name = name
      · rw [if_pos (beq_iff_eq.2 hname), List.flatMap_cons, List.filter_append]
      · rw [if_neg (fun h => hname (beq_iff_eq.1 h)), elsewhere ho hname, List.nil_append]
  rw [below]
  exact each occurrences fun _ h => h

/-! ### One level -/

/-- The nodes of a level are those of the declarations right below the enclosing names. -/
theorem names_merge (surrounding : AreSurrounding names around)
    (level : AreLevel around occurrences) :
    (merge occurrences).map (fun node => names ++ [node.name])
      = (((declaredLevel around occurrences).map (·.key.names)).filter
          (·.dropLast = names)).eraseDups := by
  have own : (declaredLevel around occurrences).filter (fun x => x.key.names.dropLast = names)
      = occurrences.map (·.own around) := by
    rw [filter_declaredLevel_own]
    · apply congrArg
      apply List.filter_eq_self.2
      intro o ho
      simp [Occurrence.own, names_key surrounding level ho]
    · intro o ho x hx
      obtain ⟨inner, rest, h⟩ := names_of_mem_deeper surrounding level ho hx
      simp [h]
  have tell : ((declaredLevel around occurrences).map (·.key.names)).filter (·.dropLast = names)
      = occurrences.map fun o => names ++ [o.name] := by
    rw [List.filter_map, Function.comp_def, own, List.map_map]
    exact List.map_congr_left fun o ho => names_key surrounding level ho
  have each : (occurrences.map fun o => names ++ [o.name])
      = (occurrences.map (·.name)).map fun name => names ++ [name] := by
    simp [Function.comp_def]
  rw [tell, each, Distinct.eraseDups_map _ _ fun a _ b _ h => by simpa using h, ← map_name_merge]
  simp [Function.comp_def]

/-- The declarations of one name on a level. -/
theorem filter_names_eq (surrounding : AreSurrounding names around)
    (level : AreLevel around occurrences) (name : String) :
    (declaredLevel around occurrences).filter (·.key.names = names ++ [name])
      = (named name occurrences).map (·.own around) := by
  rw [filter_declaredLevel_own]
  · apply congrArg
    apply List.filter_congr
    intro o ho
    simp only [Occurrence.own, names_key surrounding level ho, List.append_cancel_left_eq,
      List.cons.injEq, and_true]
    rfl
  · intro o ho x hx
    obtain ⟨inner, rest, h⟩ := names_of_mem_deeper surrounding level ho hx
    simp [h]

/-- The declarations of a symbol of a node. -/
theorem filter_key_eq (surrounding : AreSurrounding names around)
    (level : AreLevel around occurrences) {name : String} {signature : Signature}
    (hsignature : signature ∈ signatures (named name occurrences)) :
    (declaredLevel around occurrences).filter (·.key = signature.keyIn around name)
      = ((named name occurrences).filter (·.signature == signature)).map (·.own around) := by
  obtain ⟨o', ho', rfl⟩ := exists_of_mem_signatures hsignature
  obtain ⟨hmem', hname'⟩ := mem_named.1 ho'
  have hnames := names_keyIn surrounding (level.fits o' hmem') name
  have split : (declaredLevel around occurrences).filter (·.key = o'.signature.keyIn around name)
      = ((declaredLevel around occurrences).filter (·.key.names = names ++ [name])).filter
          (·.key = o'.signature.keyIn around name) := by
    rw [List.filter_filter]
    apply List.filter_congr
    intro x _
    by_cases hx : x.key = o'.signature.keyIn around name
    · simp [hx, hnames]
    · simp [hx]
  rw [split, filter_names_eq surrounding level, List.filter_map]
  apply congrArg
  apply List.filter_congr
  intro o ho
  obtain ⟨hmem, hname⟩ := mem_named.1 ho
  have hiff : o.key around = o'.signature.keyIn around name ↔ o.signature = o'.signature := by
    rw [key, hname]
    exact ⟨keyIn_injective surrounding (level.fits o hmem) (level.fits o' hmem')
      (level.agrees o hmem) (level.agrees o' hmem'), fun h => by rw [h]⟩
  simp only [Function.comp_apply, Occurrence.own, hiff]
  rfl

end Occurrence

namespace Place.Represents

variable {declarations below : List EffectiveDeclaration} {place : Place}

theorem names_key (represents : place.Represents declarations) {entry : Entry}
    (hentry : entry ∈ place.node.entries) :
    (entry.signature.keyIn place.around.keys place.node.name).names = place.names := by
  have hmem : entry.signature.keyIn place.around.keys place.node.name ∈ place.keys :=
    List.mem_map_of_mem hentry
  rw [represents.keys_eq, List.mem_eraseDups, List.mem_filter] at hmem
  exact of_decide_eq_true hmem.2

/-- What a place tells of the level below a node it tells of the whole level. -/
theorem of_below (represents : place.Represents below)
    (h : ∀ holds : EffectiveDeclaration → Bool,
      (∀ x, holds x = true → ∃ rest, x.key.names = place.names ++ rest) →
      declarations.filter holds = below.filter holds) : place.Represents declarations := by
  have same {entry : Entry} (hentry : entry ∈ place.node.entries) :
      declarations.filter (·.key = entry.signature.keyIn place.around.keys place.node.name)
        = below.filter (·.key = entry.signature.keyIn place.around.keys place.node.name) := by
    refine h _ fun x hx => ⟨[], ?_⟩
    rw [of_decide_eq_true hx, represents.names_key hentry, List.append_nil]
  constructor
  · rw [represents.keys_eq, List.filter_map, List.filter_map, h]
    exact fun x hx => ⟨[], by rw [List.append_nil]; exact of_decide_eq_true hx⟩
  · intro entry hentry
    rw [represents.locations_eq entry hentry, same hentry]
  · intro entry hentry
    rw [represents.accessibility_eq entry hentry, ← List.head?_filter, ← List.head?_filter,
      same hentry]
  · rw [represents.children_eq, List.filter_map, List.filter_map, h]
    intro x hx
    obtain ⟨last, hlast⟩ := exists_last_of_dropLast_eq (of_decide_eq_true hx)
    refine ⟨[last], ?_⟩
    rw [Place.names, List.append_assoc]
    exact hlast

end Place.Represents

end SymbolSearch
