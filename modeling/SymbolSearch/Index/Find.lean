import SymbolSearch.Index.Query
import SymbolSearch.Index.Table
import SymbolSearch.Pattern.Score

/-!
# Finding symbols in an index

Names are looked up by binary search among the ordered names. Patterns are scored once for every
name, and the symbols of all names that fit are listed with the best fits first.
-/

namespace SymbolSearch

/-- The first number from `low` on that is not `below`, where the numbers below come first. -/
def lowerBound (below : Nat → Bool) (low high : Nat) : Nat :=
  if low < high then
    let middle := (low + high) / 2
    if below middle then lowerBound below (middle + 1) high else lowerBound below low middle
  else low
termination_by high - low

namespace SymbolIndex

def accepts (index : SymbolIndex) (options : FindOptions) (handle : Nat) : Bool :=
  match index.info? handle with
  | some info => options.filter.accepts info.kind && options.scope.includes info.origin
  | none => false

def symbolsOf (index : SymbolIndex) (node : Nat) : List Nat :=
  ((index.node? node).map (·.symbols)).getD []

/-- The names with the given lowercase form, which stand next to each other. -/
def foldedRange (index : SymbolIndex) (folded : String) : List NameEntry :=
  let names := index.table.names
  let below i := (names[i]?.map fun entry => decide (entry.folded < folded)).getD false
  (names.toList.drop (lowerBound below 0 names.size)).takeWhile (·.folded == folded)

def findByName (index : SymbolIndex) (name : String) (ignoreCase : Bool) (options : FindOptions) :
    List Nat :=
  let entries := index.foldedRange (Text.lowercase name)
  let nodes := (entries.filter fun entry => ignoreCase || entry.name == name).map (·.node)
  ((nodes.flatMap index.symbolsOf).filter (index.accepts options)).mergeSort (· ≤ ·)

/-- Every name of the index with the symbols of that name which are accepted, if there are any. -/
def acceptedGroups (index : SymbolIndex) (options : FindOptions) : List (String × List Nat) :=
  (index.table.names.toList.splitBy fun a b => a.name == b.name).filterMap fun group => do
    let handles := (group.flatMap fun entry => index.symbolsOf entry.node).filter
      (index.accepts options)
    let entry ← group.head?
    if handles.isEmpty then none else some (entry.name, handles)

def scoreGroups (score : String → Option MatchScore) (groups : List (String × List Nat)) :
    List (MatchScore × Nat) :=
  groups.flatMap fun (name, handles) =>
    match score name with
    | some score => handles.map (score, ·)
    | none => []

/-- The better fit first, and of equal fits the smaller handle. -/
def isBefore (a b : MatchScore × Nat) : Bool :=
  ((b.1.order a.1).then (compare a.2 b.2)).isLE

def findByPattern (index : SymbolIndex) (text : String) (options : FindOptions) : List Nat :=
  match Pattern.ofText? text with
  | none => []
  | some pattern =>
    let groups := index.acceptedGroups options
    let fits := scoreGroups pattern.score groups
    let fits :=
      if fits.isEmpty && options.editFallback then scoreGroups pattern.scoreEdits groups else fits
    (fits.mergeSort isBefore).map (·.2)

def findByPredicate (index : SymbolIndex) (holds : String → Bool) (options : FindOptions) :
    List Nat :=
  ((List.range index.symbolCount).filter (index.accepts options)).filter fun handle =>
    holds ((index.name? handle).getD "")

/-- The handles of the symbols that a query finds. -/
def find (index : SymbolIndex) (query : Query) (options : FindOptions) : List Nat :=
  if options.filter.isEmpty || query.isBlank then []
  else
    match query with
    | .named (.exact name) => index.findByName name false options
    | .named (.ignoreCase name) => index.findByName name true options
    | .named (.fuzzy pattern) => index.findByPattern pattern options
    | .predicate predicate => index.findByPredicate predicate.holds options

/-- A predicate is asked about the name of every accepted symbol, and may cancel the search. -/
def findCancels (index : SymbolIndex) (query : Query) (options : FindOptions) : Bool :=
  match query with
  | .named _ => false
  | .predicate predicate =>
    !options.filter.isEmpty && !(index.findByPredicate predicate.cancels options).isEmpty

end SymbolIndex

end SymbolSearch
