import SymbolSearch.CommandLine.Run

/-!
# The program

Gathers the files that a command looks at, runs the command on them, prints what it says and writes
the files that it has changed.
-/

namespace SymbolSearch

/-- The paths of the configuration and of the solution. -/
def Request.inputs (environment : Environment) : Request → List String
  | version => []
  | run config command =>
    let candidates :=
      match config, environment.config with
      | some path, _ => [path]
      | none, some path => [Path.join command.root path]
      | none, none => Settings.fileNames.map (Path.join command.root)
    command.solution :: candidates

/-- The directory of stored indexes and the log file, as far as the settings name them. -/
def Request.outputs (files : FileTree) (environment : Environment) :
    Request → Option String × Option String
  | version => (none, none)
  | run config command =>
    match command.settings files environment config with
    | .ok settings => (settings.search.cache.directory, settings.log.file)
    | .error _ => (none, none)

/-- The tree with a file, and the directories around it. -/
def FileTree.withFile (files : FileTree) (path : String) (content : Bytes) : FileTree :=
  let around := (files.makeDirectories ((Path.parent? path).getD "")).toOption.getD files
  (around.write path content).toOption.getD around

/-- Adds what stands at a path to the tree. -/
def gather (files : FileTree) (path : String) : IO FileTree := do
  let place := (← IO.currentDir) / path
  if ← place.isDir then
    return (files.makeDirectories path).toOption.getD files
  else if ← place.pathExists then
    return files.withFile path (← IO.FS.readBinFile place).toList
  else return files

/-- The paths of what stands in a directory. -/
def listDirectory (path : String) : IO (List String) := do
  let place := (← IO.currentDir) / path
  if ← place.isDir then
    return (← place.readDir).toList.map fun entry => Path.join path entry.fileName
  else return []

def writeChanged (before : FileTree) (entry : List String × FileEntry) : IO Unit := do
  let path := Path.ofSteps entry.1
  if before.entry? entry.1 == some entry.2 then return
  match entry.2 with
  | .directory => IO.FS.createDirAll path
  | .file content =>
    IO.FS.createDirAll (Path.ofSteps entry.1.dropLast)
    IO.FS.writeBinFile path (ByteArray.mk content.toArray)

/-- The tree that holds the working directory only. -/
def emptyTree : IO FileTree := do
  let working := Path.steps (← IO.currentDir).toString
  let files : FileTree := ⟨working, []⟩
  return (files.makeDirectories (Path.ofSteps working)).toOption.getD files

def gatherFor (environment : Environment) (request : Request) : IO FileTree := do
  let files ← (request.inputs environment).foldlM gather (← emptyTree)
  let (directory, log) := request.outputs files environment
  let stored ← (directory.map listDirectory).getD (return [])
  (directory.toList ++ stored ++ log.toList).foldlM gather files

def runMain (arguments : List String) : IO UInt32 := do
  let environment : Environment := ⟨← IO.getEnv "NOVA_CONFIG_PATH", ← IO.getEnv "RUST_LOG"⟩
  let files ←
    match Arguments.parse arguments with
    | some request => gatherFor environment request
    | none => emptyTree
  let finish := runProgram files environment arguments
  finish.files.entries.forM (writeChanged files)
  IO.print finish.output
  IO.eprint finish.errors
  return UInt32.ofNat finish.code

end SymbolSearch

def main (arguments : List String) : IO UInt32 := SymbolSearch.runMain arguments
