import SymbolSearch.Index.Resolve
import SymbolSearch.Search.Session

/-!
# Descriptors and symbols

A symbol is described by its key and its project, and a descriptor is resolved to the symbol that it
describes in a snapshot. Descriptors of nothing in the snapshot are dropped.
-/

namespace SymbolSearch

def LiveSymbol.descriptor (symbol : LiveSymbol) : Descriptor := ⟨symbol.key, symbol.project⟩

/-- The list without repetitions. Equal items of different projects differ by their project. -/
def distinct {α : Type} [BEq α] (items : List α) : List α := items.eraseDups

namespace Descriptor

variable {σ : Type}

open SearchM

def symbolIn (descriptor : Descriptor) (index : SymbolIndex) : Option LiveSymbol :=
  (index.resolveKey descriptor.key).bind (index.symbol? descriptor.project)

def noteDropped (descriptor : Descriptor) (reason : String) : SearchM σ Unit :=
  note (.descriptorDropped descriptor.project descriptor.key reason)

/-- The symbol in the index of the descriptor's project, which is absent if the project is. -/
def resolveWith (descriptor : Descriptor) (index? : Option SymbolIndex) :
    SearchM σ (Option LiveSymbol) := do
  match index? with
  | none =>
    descriptor.noteDropped "project not in snapshot"
    return none
  | some index =>
    match descriptor.symbolIn index with
    | some symbol => return some symbol
    | none =>
      descriptor.noteDropped "key not found"
      return none

def indexFor (graph : ProjectGraph) (id : ProjectId) : SearchM σ (Option SymbolIndex) := do
  match ← askProject graph id with
  | some project => return some (← indexOf project)
  | none => return none

def resolve (graph : ProjectGraph) (descriptor : Descriptor) :
    SearchM σ (Option LiveSymbol) := do
  checkToken
  descriptor.resolveWith (← indexFor graph descriptor.project)

/-- The indexes that were looked up so far; an absent index is that of an absent project. -/
abbrev Known := List (ProjectId × Option SymbolIndex)

def resolveEach (graph : ProjectGraph) : Known → List Descriptor → SearchM σ (List LiveSymbol)
  | _, [] => return []
  | known, descriptor :: rest => do
    checkToken
    let known ←
      match known.lookup descriptor.project with
      | some _ => pure known
      | none => do pure ((descriptor.project, ← indexFor graph descriptor.project) :: known)
    let symbol ← descriptor.resolveWith ((known.lookup descriptor.project).join)
    return symbol.toList ++ (← resolveEach graph known rest)

/-- The symbols of a list of descriptors, each project being looked up once. -/
def resolveAll (graph : ProjectGraph) (descriptors : List Descriptor) :
    SearchM σ (List LiveSymbol) :=
  resolveEach graph [] (distinct descriptors)

end Descriptor

end SymbolSearch
