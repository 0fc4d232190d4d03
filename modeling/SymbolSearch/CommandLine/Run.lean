import SymbolSearch.CommandLine.Arguments
import SymbolSearch.CommandLine.Report
import SymbolSearch.Config.Discovery
import SymbolSearch.Config.LogFilter

/-!
# Running commands

A command loads the configuration and the solution and then searches or indexes the solution. What
it prints, the files that it leaves and its exit code follow from the files that it finds, the
environment and the arguments.
-/

namespace SymbolSearch

/-- The variables of the environment: the path of the configuration and the log directives. -/
structure Environment where
  config : Option String
  logFilter : Option String

structure Finish where
  code : Nat
  output : String
  errors : String
  files : FileTree

/-- Why a command fails. -/
inductive CommandError where
  | config (path : String) (error : ConfigError)
  | workspaceConfig (root : String) (error : ConfigError)
  | solution (path : String) (error : LoadError)
  | search (error : SearchError)
  | index (project : String) (error : IndexError)

namespace CommandError

/-- What was attempted, what went wrong, and why. -/
def chain : CommandError → List String
  | config path error =>
    [s!"failed to load config {path}", error.message] ++ error.cause?.toList
  | workspaceConfig root error =>
    [s!"failed to load config for {root}", error.message] ++ error.cause?.toList
  | solution path error =>
    [s!"failed to load solution {path}", error.message] ++ error.cause?.toList
  | search error => [error.message]
  | index project error => [s!"failed to index {project}", error.message]

def message (error : CommandError) : String := ": ".intercalate error.chain

end CommandError

namespace Command

/-- The directory of the solution, in which the configuration is looked for. -/
def root (command : Command) : String :=
  match Path.parent? command.solution with
  | none | some "" => "."
  | some directory => directory

def settings (files : FileTree) (environment : Environment) (config : Option String)
    (command : Command) : Except CommandError Settings :=
  match config with
  | some path => (Settings.load files path).mapError (.config path)
  | none =>
    match Settings.loadFor files command.root environment.config with
    | .ok (settings, _) => .ok settings
    | .error error => .error (.workspaceConfig command.root error)

abbrev CommandM := ExceptT CommandError (StateM (Session Worker))

def ofSearch {α : Type} (action : SearchM Worker α) : CommandM α := fun session =>
  match action session with
  | (.ok a, session) => (.ok a, session)
  | (.error error, session) => (.error (.search error), session)

def indexEach : List Project → CommandM (List IndexedProject)
  | [] => return []
  | project :: rest => do
    let session ← get
    match session.cache.getOrBuild session.files project session.token with
    | .error error => throw (.index project.info.name error)
    | .ok request =>
      set { session with
        cache := request.cache, files := request.files,
        events := session.events ++ request.events }
      let index := request.held.index
      let indexed : IndexedProject :=
        ⟨project.id, project.info.name, index.fingerprint, index.nodeCount, index.symbolCount⟩
      return indexed :: (← indexEach rest)

def note (event : Event) : CommandM Unit :=
  modify fun session => { session with events := session.events ++ [event] }

/-- A search goes through a worker in the same program if that is asked for. -/
def attachWorker (graph : ProjectGraph) : CommandM Unit := do
  modify fun session => { session with host := session.host.register graph }
  note (.snapshotRegistered graph.checksum)

def searchSolution (settings : SearchSettings) (solution : Solution) (query : NameQuery)
    (flags : SearchFlags) : CommandM Outcome := do
  if flags.remote then attachWorker solution.graph
  let dispatcher : Dispatcher Worker :=
    ⟨settings.pattern.editFallback, settings.remote.enabled,
      if flags.remote then some Worker.sharingHost else none⟩
  let scope := if flags.metadata then SearchScope.sourceAndMetadata else .sourceOnly
  ofSearch (dispatcher.dispatch solution.graph (.ofProject? flags.project) (.named query)
    ⟨flags.filter, scope⟩)

/-- The text that the command prints. -/
def perform (settings : SearchSettings) (command : Command) : CommandM String := do
  let path := command.solution
  let solution ← match Solution.load (← get).files path with
    | .ok solution => pure solution
    | .error error => throw (.solution path error)
  note (solution.loadedEvent path)
  match command with
  | search _ query flags =>
    let outcome ← searchSolution settings solution query flags
    return (Report.search outcome).text flags.json
  | index _ json =>
    let projects ← indexEach solution.projects
    let cache := (← get).cache
    return (Report.index cache.directory cache.builds cache.loads projects).text json

end Command

/-! ## Logs -/

/-- The line of an event in a log, without the time. -/
def Event.line (json : Bool) (event : Event) : String :=
  if json then
    (Json.object [("level", .string event.level.name.toUpper), ("fields", event.fields),
      ("target", .string event.component)]).compact
  else
    s!"{event.level.name.toUpper} {event.component}: {event.message}"

/-- Adds a text to the end of a file, which is made if it is not there. -/
def FileTree.append (files : FileTree) (path text : String) : Except FileFault FileTree :=
  match files.read path with
  | .ok content => files.write path (content ++ Bytes.ofString text)
  | .error _ => files.write path (Bytes.ofString text)

namespace Command

/-- The log file is opened before anything is logged. -/
def openLog (files : FileTree) (settings : LogSettings) : Session Worker → Session Worker :=
  fun session =>
    match settings.file.map fun path => (path, files.append path "") with
    | some (_, .ok files) => { session with files }
    | some (path, .error _) => { session with events := [.logFileNotOpened path] }
    | none => session

/-- Runs a command with its settings. -/
def runWith (files : FileTree) (environment : Environment) (settings : Settings)
    (command : Command) : Finish :=
  let search := settings.search
  let log := settings.log
  let session : Session Worker :=
    ⟨search.cache.cache, files, ⟨false⟩, none, [], .new search.pattern.editFallback⟩
  let (result, session) := (command.perform search).run (openLog files log session)
  let filter := LogFilter.effective log.level environment.logFilter
  let lines := (session.events.filter filter.admits).map (·.line log.json ++ "\n")
  let logged := String.join lines
  let written := (log.file.map fun path => session.files.append path logged).bind Except.toOption
  let shown := if log.stderr then logged else ""
  let files := written.getD session.files
  match result with
  | .ok output => ⟨0, output, shown, files⟩
  | .error error => ⟨2, "", shown ++ error.message ++ "\n", files⟩

end Command

def programVersion : String := "nova 0.1.0"

/-- Runs the program. Arguments that make no sense, and failures, have the exit code 2. -/
def runProgram (files : FileTree) (environment : Environment) (arguments : List String) : Finish :=
  match Arguments.parse arguments with
  | none => ⟨2, "", "usage\n", files⟩
  | some .version => ⟨0, programVersion ++ "\n", "", files⟩
  | some (.run config command) =>
    match command.settings files environment config with
    | .ok settings => command.runWith files environment settings
    | .error error => ⟨2, "", error.message ++ "\n", files⟩

end SymbolSearch
