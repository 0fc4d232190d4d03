import SymbolSearch.Event
import SymbolSearch.Index.Store

/-!
# The cache of indexes

Indexes in use are held in memory, one for every project and content, up to a capacity: when there
are too many, the one that has not been used for the longest time is given up. An index that is not
held is read from the store, if the cache has one and the file is sound, and is built otherwise.
-/

namespace SymbolSearch

structure CacheKey where
  project : ProjectId
  fingerprint : Fingerprint
  deriving DecidableEq, Repr

def Project.cacheKey (project : Project) : CacheKey := ⟨project.id, project.fingerprint⟩

/-- An index that is held. The stamp is the number of indexes that the cache had obtained before, so
no two of them have the same. -/
structure HeldIndex where
  index : SymbolIndex
  stamp : Nat

/-- The slots stand in the order of their last use, the latest at the end. -/
structure IndexCache where
  capacity : Nat
  directory : Option String
  slots : List (CacheKey × HeldIndex)
  builds : Nat
  loads : Nat

namespace IndexCache

def defaultCapacity : Nat := 64

/-- A cache holds at least one index. -/
def empty (capacity : Nat) (directory : Option String) : IndexCache :=
  ⟨max capacity 1, directory, [], 0, 0⟩

def clear (cache : IndexCache) : IndexCache := { cache with slots := [] }

def lookup? (cache : IndexCache) (key : CacheKey) : Option HeldIndex := cache.slots.lookup key

/-- Puts a slot at the end, where it stands after a use. -/
def touch (cache : IndexCache) (key : CacheKey) (held : HeldIndex) : IndexCache :=
  { cache with slots := cache.slots.filter (·.1 != key) ++ [(key, held)] }

/-- The number of slots that are given up when one is added. -/
def excess (cache : IndexCache) : Nat := cache.slots.length + 1 - cache.capacity

def evicted (cache : IndexCache) : List CacheKey := (cache.slots.take cache.excess).map (·.1)

def insert (cache : IndexCache) (key : CacheKey) (held : HeldIndex) : IndexCache :=
  { cache with slots := cache.slots.drop cache.excess ++ [(key, held)] }

/-- The index of a project, if it is held. -/
def get? (cache : IndexCache) (project : Project) : Option HeldIndex × IndexCache :=
  match cache.lookup? project.cacheKey with
  | some held => (some held, cache.touch project.cacheKey held)
  | none => (none, cache)

/-- How an index was obtained that was not held, and what came of storing it. -/
structure Obtained where
  index : SymbolIndex
  wasLoaded : Bool
  files : FileTree
  events : List Event

def buildEvent (project : Project) (index : SymbolIndex) : Event :=
  .treeBuilt project.id project.fingerprint index.nodeCount index.symbolCount

/-- Builds an index and stores it at the path. A failure to store it is noted and forgiven. -/
def buildAndSave (files : FileTree) (project : Project) (path : String) : Obtained :=
  let index := SymbolIndex.build project
  match IndexStore.save files path index with
  | .ok files => ⟨index, false, files, [buildEvent project index]⟩
  | .error error =>
    ⟨index, false, files, [buildEvent project index, .treeNotStored project.id error.message]⟩

/-- Reads the index at the path; whatever is wrong with it, the index is built instead. -/
def loadOrBuild (files : FileTree) (project : Project) (path : String) : Obtained :=
  match IndexStore.load files path project.fingerprint with
  | .ok (some index) => ⟨index, true, files, [.treeLoaded project.id path]⟩
  | .ok none => buildAndSave files project path
  | .error error =>
    let built := buildAndSave files project path
    { built with events := .treeDiscarded project.id path error.message :: built.events }

def obtain (directory : Option String) (files : FileTree) (project : Project) : Obtained :=
  match directory with
  | some directory =>
    loadOrBuild files project (IndexStore.path directory project.id project.fingerprint)
  | none =>
    let index := SymbolIndex.build project
    ⟨index, false, files, [buildEvent project index]⟩

/-- What a request for an index gives, and how it leaves the cache and the files. -/
structure Request where
  held : HeldIndex
  cache : IndexCache
  files : FileTree
  events : List Event

/-- The index of a project, which is held from now on. -/
def use (cache : IndexCache) (files : FileTree) (project : Project) : Request :=
  let key := project.cacheKey
  match cache.lookup? key with
  | some held => ⟨held, cache.touch key held, files, []⟩
  | none =>
    let obtained := obtain cache.directory files project
    let held : HeldIndex := ⟨obtained.index, cache.builds + cache.loads⟩
    let given := cache.evicted.map fun key => Event.treeEvicted key.project key.fingerprint
    let filled := cache.insert key held
    let counted :=
      if obtained.wasLoaded then { filled with loads := cache.loads + 1 }
      else { filled with builds := cache.builds + 1 }
    ⟨held, counted, obtained.files, given ++ obtained.events⟩

/-- Nothing is done for a caller that has cancelled. -/
def getOrBuild (cache : IndexCache) (files : FileTree) (project : Project) (token : Token) :
    Except IndexError Request :=
  if token.cancelled then .error .cancelled else .ok (cache.use files project)

end IndexCache

end SymbolSearch
