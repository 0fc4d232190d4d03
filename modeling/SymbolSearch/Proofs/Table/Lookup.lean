import Mathlib.Data.List.SplitBy
import SymbolSearch.Proofs.Table.Names

/-!
# Look-ups in range

All numbers that an index stores are in range. So look-ups that give up at the first number out of
range find what those find that go on with something else.
-/

namespace SymbolSearch

namespace Checked

/-! ### Look-ups that give up

Each of them is `none` as soon as it meets a number out of range. -/

/-- A binary search that may give up at any of the numbers it looks at. -/
def lowerBound (below : Nat → Option Bool) (low high : Nat) : Option Nat :=
  if low < high then
    let middle := (low + high) / 2
    (below middle).bind fun isBelow =>
      if isBelow then lowerBound below (middle + 1) high else lowerBound below low middle
  else some low
termination_by high - low

variable (index : SymbolIndex)

def accepts (options : FindOptions) (handle : Nat) : Option Bool := do
  let info ← index.info? handle
  return options.filter.accepts info.kind && options.scope.includes info.origin

def foldedRange (folded : String) : Option (List NameEntry) := do
  let names := index.table.names
  let below i := names[i]?.map fun entry => decide (entry.folded < folded)
  let start ← lowerBound below 0 names.size
  if start ≤ names.size then return (names.toList.drop start).takeWhile (·.folded == folded)
  else none

def findByName (name : String) (ignoreCase : Bool) (options : FindOptions) :
    Option (List Nat) := do
  let entries ← foldedRange index (Text.lowercase name)
  let rows ← entries.mapM fun entry => index.node? entry.node
  let named := rows.filter fun row => ignoreCase || row.name == name
  let handles ← (named.flatMap (·.symbols)).filterM (accepts index options)
  return handles.mergeSort (· ≤ ·)

/-- The accepted symbols of a group of entries, under the name of the first one. -/
def acceptedGroup (options : FindOptions) (group : List NameEntry) :
    Option (String × List Nat) := do
  let rows ← group.mapM fun entry => index.node? entry.node
  let handles ← (rows.flatMap (·.symbols)).filterM (accepts index options)
  return ((← rows.head?).name, handles)

def acceptedGroups (options : FindOptions) : Option (List (String × List Nat)) := do
  let groups := index.table.names.toList.splitBy fun a b => a.name == b.name
  return (← groups.mapM (acceptedGroup index options)).filter fun group => !group.2.isEmpty

def findByPattern (text : String) (options : FindOptions) : Option (List Nat) :=
  match Pattern.ofText? text with
  | none => some []
  | some pattern => do
    let groups ← acceptedGroups index options
    let fits := SymbolIndex.scoreGroups pattern.score groups
    let fits :=
      if fits.isEmpty && options.editFallback then
        SymbolIndex.scoreGroups pattern.scoreEdits groups
      else fits
    return (fits.mergeSort SymbolIndex.isBefore).map (·.2)

def findByPredicate (holds : String → Bool) (options : FindOptions) : Option (List Nat) := do
  let accepted ← (List.range index.symbolCount).filterM (accepts index options)
  accepted.filterM fun handle => do
    let info ← index.info? handle
    return holds (← index.node? info.node).name

def find (query : Query) (options : FindOptions) : Option (List Nat) :=
  if options.filter.isEmpty || query.isBlank then some []
  else
    match query with
    | .named (.exact name) => findByName index name false options
    | .named (.ignoreCase name) => findByName index name true options
    | .named (.fuzzy pattern) => findByPattern index pattern options
    | .predicate predicate => findByPredicate index predicate.holds options

/-- The name of a symbol, if there is a symbol of this handle. -/
def name (handle : Nat) : Option (Option String) :=
  match index.info? handle with
  | none => some none
  | some info => (index.node? info.node).map fun row => some row.name

/-- The segments of a symbol and its containers. It gives up when it has no fuel left. -/
def segmentsUp : Nat → Nat → List KeySegment → Option (List KeySegment)
  | 0, _, _ => none
  | fuel + 1, handle, inner => do
    let info ← index.info? handle
    let row ← index.node? info.node
    let segments := ⟨info.kind, row.name, info.arity, info.parameters⟩ :: inner
    match info.parent with
    | some parent => segmentsUp fuel parent segments
    | none => return segments

def key (handle : Nat) : Option (Option SymbolKey) :=
  match index.info? handle with
  | none => some none
  | some info =>
    (segmentsUp index (handle + 1) handle []).map fun segments => some ⟨segments, info.origin⟩

def childNamed (node : Nat) (name : String) : Option (Option Nat) := do
  let row ← index.node? node
  row.children.findM? fun child => do return (← index.node? child).name == name

def isSegmentOf (origin : SymbolOrigin) (segment : KeySegment) (container : Option Nat)
    (handle : Nat) : Option Bool := do
  let info ← index.info? handle
  return info.parent == container && info.origin == origin && info.kind == segment.kind
    && info.arity == segment.arity && info.parameters == segment.parameters

def step (origin : SymbolOrigin) (segment : KeySegment) (candidate : SymbolIndex.Candidate) :
    Option (List SymbolIndex.Candidate) := do
  match ← childNamed index candidate.node segment.name with
  | none => return []
  | some child =>
    let row ← index.node? child
    let handles ← row.symbols.filterM (isSegmentOf index origin segment candidate.symbol)
    return handles.map fun handle => ⟨child, some handle⟩

def candidates (key : SymbolKey) : Option (List SymbolIndex.Candidate) :=
  key.segments.foldlM (fun found segment => do
    return (← found.mapM (step index key.origin segment)).flatten) [⟨0, none⟩]

/-- The symbol that a key names, if there is one. -/
def resolveKey (key : SymbolKey) : Option (Option Nat) :=
  (candidates index key).map fun found => found.head?.bind (·.symbol)

/-! ### Lists of look-ups that do not give up -/

section

variable {α β : Type} {items : List α}

theorem mapM_eq_some {f : α → Option β} {g : α → β} (h : ∀ a ∈ items, f a = some (g a)) :
    items.mapM f = some (items.map g) := by
  induction items with
  | nil => rfl
  | cons a rest ih =>
    obtain ⟨ha, hrest⟩ := List.forall_mem_cons.1 h
    rw [List.mapM_cons, ha, ih hrest]
    rfl

theorem filterAuxM_eq_some {p : α → Option Bool} {q : α → Bool}
    (h : ∀ a ∈ items, p a = some (q a)) (kept : List α) :
    items.filterAuxM p kept = some ((items.filter q).reverse ++ kept) := by
  induction items generalizing kept with
  | nil => rfl
  | cons a rest ih =>
    obtain ⟨ha, hrest⟩ := List.forall_mem_cons.1 h
    rw [List.filterAuxM, ha]
    change rest.filterAuxM p (cond (q a) (a :: kept) kept) = _
    rw [ih hrest]
    cases hq : q a with
    | true => simp [hq]
    | false => simp [hq]

theorem filterM_eq_some {p : α → Option Bool} {q : α → Bool}
    (h : ∀ a ∈ items, p a = some (q a)) : items.filterM p = some (items.filter q) := by
  rw [List.filterM, filterAuxM_eq_some h]
  simp

theorem findM?_eq_some {p : α → Option Bool} {q : α → Bool}
    (h : ∀ a ∈ items, p a = some (q a)) : items.findM? p = some (items.find? q) := by
  induction items with
  | nil => rfl
  | cons a rest ih =>
    obtain ⟨ha, hrest⟩ := List.forall_mem_cons.1 h
    rw [List.findM?, ha, List.find?_cons]
    cases hq : q a with
    | true => rfl
    | false => exact ih hrest

end

theorem lowerBound_eq {below : Nat → Option Bool} {total : Nat → Bool} {low high : Nat}
    (h : ∀ i < high, below i = some (total i)) :
    lowerBound below low high = some (SymbolSearch.lowerBound total low high) := by
  fun_induction SymbolSearch.lowerBound total low high with
  | case1 low high hlt middle hbelow ih =>
    rw [lowerBound, if_pos hlt]
    change (below middle).bind _ = _
    rw [h middle (by omega), Option.bind_some, if_pos hbelow]
    exact ih h
  | case2 low high hlt middle hbelow ih =>
    rw [lowerBound, if_pos hlt]
    change (below middle).bind _ = _
    rw [h middle (by omega), Option.bind_some, if_neg hbelow]
    exact ih fun i hi => h i (by omega)
  | case3 low high hlt => rw [lowerBound, if_neg hlt]

end Checked

namespace SymbolIndex

variable {index : SymbolIndex}

/-! ### Numbers in range -/

/-- The row of a node, and an empty one for a number out of range. -/
def rowOf (index : SymbolIndex) (id : Nat) : IndexNode := (index.node? id).getD ⟨"", none, [], []⟩

theorem symbolsOf_eq (index : SymbolIndex) (id : Nat) :
    index.symbolsOf id = (index.rowOf id).symbols := by
  rw [symbolsOf, rowOf]
  cases index.node? id <;> rfl

theorem nodeName_eq (index : SymbolIndex) (id : Nat) :
    index.nodeName id = (index.rowOf id).name := by
  rw [nodeName, rowOf]
  cases index.node? id <;> rfl

theorem node?_eq_rowOf {id : Nat} {row : IndexNode} (h : index.node? id = some row) :
    index.node? id = some (index.rowOf id) := by
  rw [rowOf, h]
  rfl

theorem node?_of_mem_names {entry : NameEntry} (h : entry ∈ index.table.names.toList) :
    index.node? entry.node = some (index.rowOf entry.node)
      ∧ (index.rowOf entry.node).name = entry.name := by
  obtain ⟨place, hplace, rfl⟩ := mem_names_iff.1 h
  have hrow := index.node?_of_mem_places hplace
  refine ⟨node?_eq_rowOf hrow, ?_⟩
  change (index.rowOf place.id).name = place.node.name
  rw [rowOf, hrow]
  rfl

theorem node?_of_info? {handle : Nat} {info : SymbolInfo} (h : index.info? handle = some info) :
    index.node? info.node = some (index.rowOf info.node) := by
  obtain ⟨place, hplace, k, entry, -, -, rfl⟩ := index.exists_place_of_info? h
  exact node?_eq_rowOf (index.node?_of_mem_places hplace)

theorem node?_of_mem_children {id child : Nat} (h : child ∈ (index.rowOf id).children) :
    index.node? child = some (index.rowOf child) := by
  have hchild : child ∈ index.childrenOf id := by
    rw [rowOf] at h
    rw [childrenOf]
    cases hrow : index.node? id with
    | none => simp [hrow] at h
    | some row => simpa [hrow] using h
  obtain ⟨row, hrow, -⟩ := Option.bind_eq_some_iff.1 (mem_childrenOf_iff.1 hchild)
  exact node?_eq_rowOf hrow

theorem node?_of_childNamed? {id child : Nat} {name : String}
    (h : index.childNamed? id name = some child) :
    index.node? child = some (index.rowOf child) := by
  obtain ⟨row, hrow, hchild⟩ := Option.bind_eq_some_iff.1 h
  refine @node?_of_mem_children index id child ?_
  rw [rowOf, hrow]
  exact List.mem_of_find?_eq_some hchild

end SymbolIndex

namespace Checked

variable {index : SymbolIndex}

/-! ### Finding -/

theorem accepts_eq (options : FindOptions) {handle : Nat} {info : SymbolInfo}
    (h : index.info? handle = some info) :
    accepts index options handle = some (index.accepts options handle) := by
  rw [accepts, SymbolIndex.accepts, h]
  rfl

theorem filterM_accepts_rows (index : SymbolIndex) (options : FindOptions)
    (entries : List NameEntry) :
    ((entries.map fun entry => index.rowOf entry.node).flatMap (·.symbols)).filterM
        (accepts index options)
      = some ((entries.flatMap fun entry => index.symbolsOf entry.node).filter
          (index.accepts options)) := by
  simp only [List.flatMap_map, ← SymbolIndex.symbolsOf_eq]
  apply filterM_eq_some
  intro handle h
  obtain ⟨entry, -, hentry⟩ := List.mem_flatMap.1 h
  obtain ⟨info, hinfo, -⟩ := SymbolIndex.exists_info?_of_mem_symbolsOf hentry
  exact accepts_eq options hinfo

theorem mapM_node? {entries : List NameEntry}
    (h : ∀ entry ∈ entries, entry ∈ index.table.names.toList) :
    entries.mapM (fun entry => index.node? entry.node)
      = some (entries.map fun entry => index.rowOf entry.node) :=
  mapM_eq_some fun entry hentry => (SymbolIndex.node?_of_mem_names (h entry hentry)).1

theorem foldedRange_eq (index : SymbolIndex) (folded : String) :
    foldedRange index folded = some (index.foldedRange folded) := by
  have hbelow : ∀ i < index.table.names.size,
      (index.table.names[i]?.map fun entry => decide (entry.folded < folded))
        = some ((index.table.names[i]?.map fun entry => decide (entry.folded < folded)).getD
            false) := by
    intro i hi
    rw [Array.getElem?_eq_getElem hi]
    rfl
  rw [foldedRange, lowerBound_eq hbelow]
  exact if_pos (lowerBound_le (Nat.zero_le _))

theorem findByName_eq (index : SymbolIndex) (name : String) (ignoreCase : Bool)
    (options : FindOptions) :
    findByName index name ignoreCase options
      = some (index.findByName name ignoreCase options) := by
  have hmem : ∀ entry ∈ index.foldedRange (Text.lowercase name),
      entry ∈ index.table.names.toList :=
    fun entry h => List.mem_of_mem_drop ((List.takeWhile_sublist _).subset h)
  have hnamed : (index.foldedRange (Text.lowercase name)).filter
        (fun entry => ignoreCase || (index.rowOf entry.node).name == name)
      = (index.foldedRange (Text.lowercase name)).filter
        fun entry => ignoreCase || entry.name == name :=
    List.filter_congr fun entry h => by rw [(SymbolIndex.node?_of_mem_names (hmem entry h)).2]
  simp only [findByName, foldedRange_eq, mapM_node? hmem, List.filter_map, Function.comp_def,
    hnamed, filterM_accepts_rows, Option.bind_eq_bind, Option.bind_some]
  rw [SymbolIndex.findByName, List.flatMap_map]
  rfl

theorem acceptedGroup_eq (options : FindOptions) {group : List NameEntry} (hgroup : group ≠ [])
    (hmem : ∀ entry ∈ group, entry ∈ index.table.names.toList) :
    acceptedGroup index options group = some (index.acceptedGroup options group) := by
  have hhead := (SymbolIndex.node?_of_mem_names (hmem _ (List.head_mem hgroup))).2
  simp only [acceptedGroup, mapM_node? hmem, Option.bind_eq_bind, Option.bind_some,
    filterM_accepts_rows, List.head?_map, List.head?_eq_some_head hgroup, Option.map_some, hhead,
    SymbolIndex.acceptedGroup]
  rfl

theorem acceptedGroups_eq (index : SymbolIndex) (options : FindOptions) :
    acceptedGroups index options = some (index.acceptedGroups options) := by
  have hgroups : index.nameGroups.mapM (acceptedGroup index options)
      = some (index.nameGroups.map (index.acceptedGroup options)) := by
    apply mapM_eq_some
    intro group hgroup
    refine acceptedGroup_eq options (List.ne_nil_of_mem_splitBy hgroup) fun entry hentry => ?_
    rw [← List.flatten_splitBy (fun a b : NameEntry => a.name == b.name) index.table.names.toList]
    exact List.mem_flatten.2 ⟨group, hgroup, hentry⟩
  rw [SymbolIndex.nameGroups] at hgroups
  rw [acceptedGroups, SymbolIndex.acceptedGroups_eq, hgroups]
  rfl

theorem findByPattern_eq (index : SymbolIndex) (text : String) (options : FindOptions) :
    findByPattern index text options = some (index.findByPattern text options) := by
  rw [findByPattern, SymbolIndex.findByPattern]
  cases Pattern.ofText? text with
  | none => rfl
  | some pattern =>
    simp only [acceptedGroups_eq]
    rfl

theorem findByPredicate_eq (index : SymbolIndex) (holds : String → Bool)
    (options : FindOptions) :
    findByPredicate index holds options = some (index.findByPredicate holds options) := by
  have hinfo : ∀ handle ∈ List.range index.symbolCount, ∃ info,
      index.info? handle = some info := by
    intro handle hhandle
    exact ⟨_, Array.getElem?_eq_getElem (List.mem_range.1 hhandle)⟩
  have haccepted : (List.range index.symbolCount).filterM (accepts index options)
      = some ((List.range index.symbolCount).filter (index.accepts options)) := by
    apply filterM_eq_some
    intro handle hhandle
    obtain ⟨info, h⟩ := hinfo handle hhandle
    exact accepts_eq options h
  rw [findByPredicate, haccepted]
  apply filterM_eq_some
  intro handle hhandle
  obtain ⟨info, h⟩ := hinfo handle (List.mem_of_mem_filter hhandle)
  simp only [h, SymbolIndex.node?_of_info? h, Option.bind_eq_bind, Option.bind_some,
    SymbolIndex.name?, Option.map_some, SymbolIndex.nodeName_eq]
  rfl

/-- Nothing that is looked up while symbols are searched is out of range. -/
theorem find_eq (index : SymbolIndex) (query : Query) (options : FindOptions) :
    find index query options = some (index.find query options) := by
  unfold find SymbolIndex.find
  split
  · rfl
  · split
    · exact findByName_eq ..
    · exact findByName_eq ..
    · exact findByPattern_eq ..
    · exact findByPredicate_eq ..

/-! ### Names and keys -/

theorem name_eq (index : SymbolIndex) (handle : Nat) :
    name index handle = some (index.name? handle) := by
  rw [name, SymbolIndex.name?]
  cases hinfo : index.info? handle with
  | none => rfl
  | some info =>
    simp only [SymbolIndex.node?_of_info? hinfo, Option.map_some, SymbolIndex.nodeName_eq]

/-- A container has a smaller handle, so the climb ends before the fuel does. -/
theorem segmentsUp_eq (wellFormed : index.WellFormed) {fuel handle : Nat} {info : SymbolInfo}
    (hfuel : handle < fuel) (hinfo : index.info? handle = some info) (inner : List KeySegment) :
    segmentsUp index fuel handle inner = some (index.segmentsUp fuel handle inner) := by
  induction fuel generalizing handle info inner with
  | zero => exact absurd hfuel (Nat.not_lt_zero _)
  | succ fuel ih =>
    have hsegment : index.segment info
        = ⟨info.kind, (index.rowOf info.node).name, info.arity, info.parameters⟩ := by
      rw [SymbolIndex.segment, SymbolIndex.nodeName_eq]
    simp only [segmentsUp, SymbolIndex.segmentsUp, hinfo, SymbolIndex.node?_of_info? hinfo,
      Option.bind_eq_bind, Option.bind_some, hsegment]
    cases hparent : info.parent with
    | none => rfl
    | some parent =>
      have hlt := SymbolIndex.parent_lt wellFormed hinfo hparent
      have hrange := (Array.getElem?_eq_some_iff.1 hinfo).1
      exact ih (by omega) (Array.getElem?_eq_getElem (Nat.lt_trans hlt hrange)) _

theorem key_eq (wellFormed : index.WellFormed) (handle : Nat) :
    key index handle = some (index.key? handle) := by
  rw [key, SymbolIndex.key?]
  cases hinfo : index.info? handle with
  | none => rfl
  | some info =>
    simp only [segmentsUp_eq wellFormed (Nat.lt_succ_self handle) hinfo, Option.map_some]

/-! ### Resolving keys -/

theorem childNamed_eq {id : Nat} {row : IndexNode} (hrow : index.node? id = some row)
    (name : String) : childNamed index id name = some (index.childNamed? id name) := by
  rw [childNamed, SymbolIndex.childNamed?, hrow]
  apply findM?_eq_some
  intro child hchild
  have hmem : child ∈ (index.rowOf id).children := by
    rw [SymbolIndex.rowOf, hrow]
    exact hchild
  simp only [SymbolIndex.node?_of_mem_children hmem, Option.bind_eq_bind, Option.bind_some,
    SymbolIndex.nodeName_eq]
  rfl

theorem isSegmentOf_eq (origin : SymbolOrigin) (segment : KeySegment) (container : Option Nat)
    {handle : Nat} {info : SymbolInfo} (h : index.info? handle = some info) :
    isSegmentOf index origin segment container handle
      = some (index.isSegmentOf origin segment container handle) := by
  rw [isSegmentOf, SymbolIndex.isSegmentOf, h]
  rfl

theorem step_eq (origin : SymbolOrigin) (segment : KeySegment)
    {candidate : SymbolIndex.Candidate} {row : IndexNode}
    (hrow : index.node? candidate.node = some row) :
    step index origin segment candidate = some (index.step origin segment candidate) := by
  rw [step, SymbolIndex.step, childNamed_eq hrow]
  cases hchild : index.childNamed? candidate.node segment.name with
  | none => rfl
  | some child =>
    have hsegments : (index.symbolsOf child).filterM
          (isSegmentOf index origin segment candidate.symbol)
        = some ((index.symbolsOf child).filter
            (index.isSegmentOf origin segment candidate.symbol)) := by
      apply filterM_eq_some
      intro handle hhandle
      obtain ⟨info, hinfo, -⟩ := SymbolIndex.exists_info?_of_mem_symbolsOf hhandle
      exact isSegmentOf_eq origin segment _ hinfo
    rw [SymbolIndex.symbolsOf_eq] at hsegments
    simp only [SymbolIndex.node?_of_childNamed? hchild, Option.bind_eq_bind, Option.bind_some,
      hsegments]
    rfl

/-- Candidates that are in range lead to candidates that are. -/
theorem foldlM_step_eq (origin : SymbolOrigin) (segments : List KeySegment)
    {found : List SymbolIndex.Candidate}
    (h : ∀ candidate ∈ found, ∃ row, index.node? candidate.node = some row) :
    segments.foldlM (fun found segment => do
        return (← found.mapM (step index origin segment)).flatten) found
      = some (segments.foldl (fun found segment =>
          found.flatMap (index.step origin segment)) found) := by
  induction segments generalizing found with
  | nil => rfl
  | cons segment rest ih =>
    have hstep : found.mapM (step index origin segment)
        = some (found.map (index.step origin segment)) := by
      apply mapM_eq_some
      intro candidate hcandidate
      obtain ⟨row, hrow⟩ := h candidate hcandidate
      exact step_eq origin segment hrow
    have hnext : ∀ candidate ∈ found.flatMap (index.step origin segment),
        ∃ row, index.node? candidate.node = some row := by
      intro candidate hcandidate
      obtain ⟨before, -, hmem⟩ := List.mem_flatMap.1 hcandidate
      exact ⟨_, SymbolIndex.node?_of_childNamed? (SymbolIndex.mem_step hmem).1⟩
    rw [List.foldlM_cons, hstep, List.foldl_cons, ← ih hnext, List.flatMap_def]
    rfl

theorem resolveKey_eq (index : SymbolIndex) (key : SymbolKey) :
    resolveKey index key = some (index.resolveKey key) := by
  have hroot : ∀ candidate ∈ [(⟨0, none⟩ : SymbolIndex.Candidate)],
      ∃ row, index.node? candidate.node = some row := by
    intro candidate hcandidate
    obtain rfl := List.mem_singleton.1 hcandidate
    exact ⟨_, index.node?_zero⟩
  rw [resolveKey, candidates, foldlM_step_eq _ _ hroot]
  rfl

end Checked

end SymbolSearch
