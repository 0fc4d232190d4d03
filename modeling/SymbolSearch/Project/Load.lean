import SymbolSearch.Event
import SymbolSearch.Files
import SymbolSearch.Project.Format
import SymbolSearch.Text.Utf8

/-!
# Loading solutions

A solution is loaded from the file that describes it, if the file can be read, is well formed, and
describes a sound solution.
-/

namespace SymbolSearch

/-- The text in a file. -/
def FileTree.readText (files : FileTree) (path : String) : Except FileFault String := do
  match Text.utf8? (← files.read path) with
  | some text => return text
  | none => throw .notText

inductive LoadError where
  | unreadable (path : String) (fault : FileFault)
  | malformed (path : String)
  | unsound (error : ProjectError)
  deriving DecidableEq, Repr

namespace LoadError

def message : LoadError → String
  | unreadable path fault => s!"failed to read {path}: {fault.message}"
  | malformed path => s!"failed to parse solution file {path}"
  | unsound error => error.message

/-- The fault that lies behind the error, for those that have one. -/
def cause? : LoadError → Option String
  | unreadable _ fault => some fault.message
  | _ => none

end LoadError

def Solution.load (files : FileTree) (path : String) : Except LoadError Solution := do
  let text ← (files.readText path).mapError (.unreadable path)
  match SolutionFormat.parse text with
  | none => throw (.malformed path)
  | some infos => (Solution.ofInfos infos).mapError .unsound

def Solution.loadedEvent (solution : Solution) (path : String) : Event :=
  .loadedSolution path solution.projects.length

end SymbolSearch
