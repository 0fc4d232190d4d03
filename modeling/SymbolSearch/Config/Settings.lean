import SymbolSearch.Index.Cache
import SymbolSearch.Json.Value

/-!
# Settings

How searches run, and what is logged. All settings have defaults.
-/

namespace SymbolSearch

structure RemoteSettings where
  enabled : Bool := true
  deriving DecidableEq, Repr

structure CacheSettings where
  capacity : Nat := IndexCache.defaultCapacity
  directory : Option String := none
  deriving DecidableEq, Repr

structure PatternSettings where
  editFallback : Bool := true
  deriving DecidableEq, Repr

structure SearchSettings where
  remote : RemoteSettings := {}
  cache : CacheSettings := {}
  pattern : PatternSettings := {}
  deriving DecidableEq, Repr

structure LogSettings where
  level : String := "info"
  json : Bool := false
  stderr : Bool := true
  file : Option String := none
  deriving DecidableEq, Repr

structure Settings where
  search : SearchSettings := {}
  log : LogSettings := {}
  deriving DecidableEq, Repr

namespace Settings

def toJson (settings : Settings) : Json :=
  let search := settings.search
  let log := settings.log
  .object [
    ("search", .object [
      ("remote", .object [("enabled", .bool search.remote.enabled)]),
      ("index_cache", .object [("capacity", .nat search.cache.capacity),
        ("persist_dir", .ofOption .string search.cache.directory)]),
      ("fuzzy", .object [("edit_distance_fallback", .bool search.pattern.editFallback)])]),
    ("logging", .object [("level", .string log.level), ("json", .bool log.json),
      ("stderr", .bool log.stderr), ("file", .ofOption .string log.file)])]

/-- Sees a relative directory of stored indexes from the given directory. -/
def relativeTo (settings : Settings) (base : String) : Settings :=
  { settings with search.cache.directory :=
      settings.search.cache.directory.map (Path.join base) }

end Settings

def CacheSettings.cache (settings : CacheSettings) : IndexCache :=
  .empty settings.capacity settings.directory

end SymbolSearch
