import SymbolSearch.Config.Format
import SymbolSearch.Project.Load

/-!
# Finding the configuration

The configuration of a workspace is the file that the environment names, or else the first of two
files at the root of the workspace. Without any, the defaults hold.
-/

namespace SymbolSearch

inductive ConfigError where
  | unreadable (path : String) (fault : FileFault)
  | invalid (fault : ConfigFault)

namespace ConfigError

def message : ConfigError → String
  | unreadable path fault => s!"failed to read config file {path}: {fault.message}"
  | invalid fault => "failed to parse toml config: " ++ fault.detail?.getD "not well formed"

def cause? : ConfigError → Option String
  | unreadable _ fault => some fault.message
  | invalid _ => none

end ConfigError

namespace Settings

/-- The settings of a file, which sees relative paths from its own directory. -/
def load (files : FileTree) (path : String) : Except ConfigError Settings := do
  let text ← (files.readText path).mapError (.unreadable path)
  let settings ← (SettingsFormat.parse text).mapError .invalid
  match Path.parent? path with
  | some directory => return settings.relativeTo directory
  | none => return settings

def fileNames : List String := ["nova.toml", ".nova.toml"]

/-- The path without detours if something stands there, and as it is if not. -/
def canonicalOr (files : FileTree) (path : String) : String :=
  ((files.canonical? path).map Path.ofSteps).getD path

def isFileAt (files : FileTree) (path : String) : Bool :=
  ((files.canonical? path).map files.isFile).getD false

/-- The file with the configuration of a workspace. `named?` is the path that the environment
names. -/
def discover (files : FileTree) (root : String) (named? : Option String) : Option String :=
  let path? :=
    match named? with
    | some path => some (Path.join root path)
    | none => (fileNames.map (Path.join root)).find? (isFileAt files)
  path?.map (canonicalOr files)

def loadFor (files : FileTree) (root : String) (named? : Option String) :
    Except ConfigError (Settings × Option String) := do
  match discover files root named? with
  | some path => return (← load files path, some path)
  | none => return ({}, none)

end Settings

end SymbolSearch
