import SymbolSearch.Proofs.Forest.Keys
import SymbolSearch.Proofs.Merge.Level
import SymbolSearch.Proofs.Search.Found
import SymbolSearch.Search.Descriptor

/-!
# What descriptors describe

The descriptors of symbols of a solution resolve to these symbols, and tell them apart as well as
the symbols themselves do. So nothing is lost on the way through descriptors, not even the order.
-/

namespace SymbolSearch

variable {hashed : Set Bytes} {σ : Type}

/-- The symbol is one of the indexes, under the id of its project. -/
structure LiveSymbol.IsIn (indexes : List (ProjectId × SymbolIndex)) (symbol : LiveSymbol) :
    Prop where
  lookup : indexes.lookup symbol.project = some symbol.index
  handle : symbol.handle < symbol.index.symbolCount

namespace Engine

variable {editFallback : Bool} {indexes : List (ProjectId × SymbolIndex)} {query : Query}
  {options : SearchOptions}

theorem isIn_of_mem_foundAt {id : ProjectId} {symbol : LiveSymbol}
    (h : symbol ∈ foundAt editFallback query options indexes id) :
    symbol.project = id ∧ symbol.IsIn indexes := by
  rw [foundAt] at h
  cases hindex : indexes.lookup id with
  | none =>
    rw [hindex] at h
    cases h
  | some index =>
    rw [hindex, Option.map_some, Option.getD_some, foundIn] at h
    split at h
    · cases h
    · obtain ⟨handle, -, hsymbol⟩ := List.mem_filterMap.1 h
      obtain ⟨info, hinfo, rfl⟩ := Option.map_eq_some_iff.1 hsymbol
      exact ⟨rfl, hindex, (Array.getElem?_eq_some_iff.1 hinfo).1⟩

theorem isIn_of_mem_found {target : SearchTarget} {symbol : LiveSymbol}
    (h : symbol ∈ found editFallback indexes target query options) :
    (∀ id ∈ target.project?, symbol.project = id) ∧ symbol.IsIn indexes := by
  cases target with
  | project id =>
    obtain ⟨hid, hin⟩ := isIn_of_mem_foundAt h
    exact ⟨fun other hother => hid.trans (Option.some.inj hother), hin⟩
  | solution =>
    obtain ⟨id, -, h⟩ := List.mem_flatMap.1 h
    refine ⟨fun other hother => ?_, (isIn_of_mem_foundAt h).2⟩
    cases hother

end Engine

/-! ### Symbols and their descriptors -/

/-- The symbol that a descriptor stands for. -/
def Descriptor.resolved (indexes : List (ProjectId × SymbolIndex)) (descriptor : Descriptor) :
    Option LiveSymbol :=
  (indexes.lookup descriptor.project).bind descriptor.symbolIn

namespace LiveSymbol

variable {solution : Solution} {symbol other : LiveSymbol}

theorem IsIn.exists_project (h : symbol.IsIn solution.indexes) :
    ∃ project, symbol.index = SymbolIndex.build project := by
  have hlookup := h.lookup
  rw [solution.lookup_indexes] at hlookup
  obtain ⟨project, -, hindex⟩ := Option.map_eq_some_iff.1 hlookup
  exact ⟨project, hindex.symm⟩

theorem IsIn.key?_eq (h : symbol.IsIn solution.indexes) :
    symbol.index.key? symbol.handle = some symbol.key := by
  obtain ⟨key, hkey⟩ := SymbolIndex.exists_key?_iff.2 h.handle
  rw [LiveSymbol.key, hkey]
  rfl

theorem IsIn.resolveKey_eq_some_iff (h : symbol.IsIn solution.indexes) {key : SymbolKey} :
    symbol.index.resolveKey key = some symbol.handle ↔ symbol.key = key := by
  have hkey := h.key?_eq
  obtain ⟨project, hproject⟩ := h.exists_project
  rw [hproject] at hkey ⊢
  rw [SymbolIndex.resolve_eq_some_iff (SymbolIndex.wellFormed_build project)
    (SymbolIndex.unambiguous_build project), hkey, Option.some.injEq]

/-- The descriptor of a symbol stands for the symbol. -/
theorem IsIn.resolved_descriptor (h : symbol.IsIn solution.indexes) :
    symbol.descriptor.resolved solution.indexes = some symbol := by
  obtain ⟨info, hinfo⟩ : ∃ info, symbol.index.info? symbol.handle = some info :=
    ⟨_, Array.getElem?_eq_getElem h.handle⟩
  rw [Descriptor.resolved, descriptor, h.lookup, Option.bind_some, Descriptor.symbolIn,
    h.resolveKey_eq_some_iff.2 rfl, Option.bind_some, SymbolIndex.symbol?, hinfo]
  rfl

/-- What a descriptor stands for is the symbol that it describes. -/
theorem resolved_eq_some_iff {descriptor : Descriptor} :
    descriptor.resolved solution.indexes = some symbol
      ↔ symbol.IsIn solution.indexes ∧ symbol.descriptor = descriptor := by
  constructor
  · intro h
    obtain ⟨index, hindex, hsymbol⟩ := Option.bind_eq_some_iff.1 h
    obtain ⟨handle, hhandle, hinfo⟩ := Option.bind_eq_some_iff.1 hsymbol
    obtain ⟨info, hinfo', rfl⟩ := Option.map_eq_some_iff.1 hinfo
    have hin : LiveSymbol.IsIn solution.indexes ⟨descriptor.project, index, handle⟩ :=
      ⟨hindex, (Array.getElem?_eq_some_iff.1 hinfo').1⟩
    have hkey := hin.resolveKey_eq_some_iff.1 hhandle
    exact ⟨hin, by rw [LiveSymbol.descriptor, hkey]⟩
  · rintro ⟨hin, rfl⟩
    exact hin.resolved_descriptor

theorem beq_iff (h : symbol.IsIn solution.indexes) (hother : other.IsIn solution.indexes) :
    (symbol == other) = true ↔ symbol = other := by
  constructor
  · intro hbeq
    change (symbol.project == other.project && symbol.handle == other.handle
      && symbol.index.fingerprint == other.index.fingerprint) = true at hbeq
    simp only [Bool.and_eq_true, beq_iff_eq] at hbeq
    obtain ⟨⟨hproject, hhandle⟩, -⟩ := hbeq
    have hindex : some symbol.index = some other.index := by
      rw [← h.lookup, ← hother.lookup, hproject]
    cases symbol
    cases other
    simp_all
  · rintro rfl
    change (symbol.project == symbol.project && symbol.handle == symbol.handle
      && symbol.index.fingerprint == symbol.index.fingerprint) = true
    simp only [beq_self_eq_true, Bool.and_self]

/-- Descriptors are the same if and only if the symbols are. -/
theorem beq_descriptor (h : symbol.IsIn solution.indexes) (hother : other.IsIn solution.indexes) :
    (symbol.descriptor == other.descriptor) = (symbol == other) := by
  rw [Bool.eq_iff_iff, beq_iff_eq, beq_iff h hother]
  constructor
  · intro hdescriptor
    have hresolved := h.resolved_descriptor
    rw [hdescriptor, hother.resolved_descriptor] at hresolved
    exact (Option.some.inj hresolved).symm
  · intro hsymbol
    rw [hsymbol]

theorem distinct_map_descriptor {symbols : List LiveSymbol}
    (h : ∀ symbol ∈ symbols, symbol.IsIn solution.indexes) :
    distinct (symbols.map (·.descriptor)) = (distinct symbols).map (·.descriptor) :=
  Distinct.eraseDups_map_of_beq _ symbols fun a ha b hb => beq_descriptor (h a ha) (h b hb)

end LiveSymbol

/-! ### Resolving descriptors -/

namespace Descriptor

open SearchM

/-- What was looked up so far is right. -/
def Known.IsFor (solution : Solution) (known : Known) : Prop :=
  ∀ id index?, known.lookup id = some index? → index? = solution.indexes.lookup id

theorem yields_resolveWith (descriptor : Descriptor) (index? : Option SymbolIndex) :
    Yields hashed (descriptor.resolveWith index? : SearchM σ (Option LiveSymbol))
      (index?.bind descriptor.symbolIn) := by
  cases index? with
  | none => exact (yields_note _).bind (yields_pure none)
  | some index =>
    rw [resolveWith, Option.bind_some]
    cases descriptor.symbolIn index with
    | some symbol => exact yields_pure _
    | none => exact (yields_note _).bind (yields_pure none)

variable (free : CollisionFree hashed) {solution : Solution} (hsolution : solution.IsHashed hashed)

include free hsolution

theorem yields_indexFor (id : ProjectId) :
    Yields hashed (indexFor solution.graph id : SearchM σ (Option SymbolIndex))
      (solution.indexes.lookup id) := by
  rw [indexFor, solution.lookup_indexes]
  refine (yields_askProject _ _).bind ?_
  rw [show solution.graph.project? id = solution.get? id from rfl]
  cases hproject : solution.get? id with
  | none => exact yields_pure none
  | some project => exact (yields_indexOf free (hsolution.get? hproject)).bind (yields_pure _)

theorem yields_resolveEach (known : Known) (hknown : known.IsFor solution)
    (descriptors : List Descriptor) :
    Yields hashed (resolveEach solution.graph known descriptors : SearchM σ (List LiveSymbol))
      (descriptors.flatMap fun descriptor => (descriptor.resolved solution.indexes).toList) := by
  induction descriptors generalizing known with
  | nil => exact yields_pure []
  | cons descriptor rest ih =>
    have next {known : Known} {index? : Option SymbolIndex} (hknown : known.IsFor solution)
        (hlookup : known.lookup descriptor.project = some index?) :
        Yields hashed
          (descriptor.resolveWith (known.lookup descriptor.project).join >>= fun symbol =>
            resolveEach solution.graph known rest >>= fun symbols =>
              pure (symbol.toList ++ symbols) : SearchM σ (List LiveSymbol))
          ((descriptor.resolved solution.indexes).toList
            ++ rest.flatMap fun descriptor => (descriptor.resolved solution.indexes).toList) := by
      rw [hlookup, Option.join_some, hknown _ _ hlookup]
      exact (yields_resolveWith _ _).bind ((ih known hknown).bind (yields_pure _))
    rw [resolveEach, List.flatMap_cons]
    refine yields_checkToken.bind ?_
    cases hlookup : known.lookup descriptor.project with
    | some index? => exact (yields_pure known).bind (next hknown hlookup)
    | none =>
      refine (yields_indexFor free hsolution _).bind ((yields_pure _).bind ?_)
      refine next (fun id index? h => ?_) List.lookup_cons_self
      rw [List.lookup_cons] at h
      split at h
      · rename_i hid
        rw [beq_iff_eq.1 hid]
        exact (Option.some.inj h).symm
      · exact hknown id index? h

/-- Repeated descriptors are dropped, and so are those of nothing in the solution. -/
theorem yields_resolveAll (descriptors : List Descriptor) :
    Yields hashed (resolveAll solution.graph descriptors : SearchM σ (List LiveSymbol))
      ((distinct descriptors).filterMap (·.resolved solution.indexes)) := by
  rw [resolveAll, List.filterMap_eq_flatMap_toList]
  exact yields_resolveEach free hsolution [] (fun _ _ h => by cases h) _

end Descriptor

/-- The symbols of a solution come back from their descriptors. -/
theorem LiveSymbol.filterMap_resolved {solution : Solution} {symbols : List LiveSymbol}
    (h : ∀ symbol ∈ symbols, symbol.IsIn solution.indexes) :
    (distinct (distinct (symbols.map (·.descriptor)))).filterMap (·.resolved solution.indexes)
      = distinct symbols := by
  have hagain : distinct (distinct (symbols.map (·.descriptor)))
      = (distinct symbols).map (·.descriptor) := by
    rw [← distinct_map_descriptor h]
    exact Distinct.eraseDups_eq_self (Distinct.nodup_eraseDups _)
  rw [hagain, List.filterMap_map]
  calc (distinct symbols).filterMap ((·.resolved solution.indexes) ∘ (·.descriptor))
      = (distinct symbols).filterMap some := by
        apply List.filterMap_congr
        intro symbol hsymbol
        exact (h symbol (Distinct.mem_of_mem_eraseDups symbols hsymbol)).resolved_descriptor
    _ = distinct symbols := List.filterMap_some

end SymbolSearch
