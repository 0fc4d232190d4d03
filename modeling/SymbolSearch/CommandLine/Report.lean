import SymbolSearch.Inspection
import SymbolSearch.Search.Dispatch

/-!
# Reports

What a command prints, as lines for a reader or as JSON for a program.
-/

namespace SymbolSearch

structure IndexedProject where
  id : ProjectId
  name : String
  fingerprint : Fingerprint
  nodes : Nat
  symbols : Nat

inductive Report where
  | search (outcome : Outcome)
  | index (directory : Option String) (built loaded : Nat) (projects : List IndexedProject)

namespace Report

def symbolLine (symbol : LiveSymbol) : String :=
  let kind := (symbol.info?.map (·.kind.name)).getD ""
  s!"{symbol.display} [{kind}] {symbol.project.display}"

def symbolJson (symbol : LiveSymbol) : Json :=
  let info := symbol.info?
  .object [("project", .word symbol.project.number), ("key", .string symbol.display),
    ("name", .ofOption .string (symbol.index.name? symbol.handle)),
    ("kind", .ofOption (fun info : SymbolInfo => .string info.kind.name) info),
    ("locations", .array (((info.map (·.locations)).getD []).map Location.toJson))]

def projectLines (project : IndexedProject) : List String :=
  [s!"indexed: {project.name} ({project.id.display})",
    s!"  fingerprint: {project.fingerprint.hex}", s!"  nodes: {project.nodes}",
    s!"  symbols: {project.symbols}"]

def projectJson (project : IndexedProject) : Json :=
  .object [("id", .word project.id.number), ("name", .string project.name),
    ("fingerprint", .string project.fingerprint.hex), ("nodes", .nat project.nodes),
    ("symbols", .nat project.symbols)]

def lines : Report → List String
  | search outcome =>
    outcome.symbols.map symbolLine
      ++ [s!"summary: {outcome.symbols.length} declarations ({outcome.traceText})"]
  | index directory built loaded projects =>
    projects.flatMap projectLines
      ++ ["persisted to: " ++ directory.getD "(disabled)",
        s!"summary: {built} built, {loaded} loaded"]

def toJson : Report → Json
  | search outcome =>
    .object [("trace", .string outcome.traceText), ("remote", .bool outcome.remoteSucceeded),
      ("symbols", .array (outcome.symbols.map symbolJson))]
  | index directory built loaded projects =>
    .object [("persist_dir", .ofOption .string directory), ("built", .nat built),
      ("loaded", .nat loaded), ("projects", .array (projects.map projectJson))]

/-- The text of a report, each line with its end. -/
def text (report : Report) (json : Bool) : String :=
  let lines := if json then [report.toJson.pretty] else report.lines
  String.join (lines.map (· ++ "\n"))

end Report

end SymbolSearch
