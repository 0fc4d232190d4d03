import SymbolSearch.Bytes
import SymbolSearch.Text.Blank

/-!
# Files

A tree of files and directories, as far as it is looked at, and the paths that lead into it. Paths
are texts in which names are separated by slashes; `..` leads to the directory around.
-/

namespace SymbolSearch

namespace Path

def isAbsolute (path : String) : Bool := path.startsWith "/"

def join (base path : String) : String :=
  if isAbsolute path ∨ base.isEmpty then path
  else if base.endsWith "/" then base ++ path
  else base ++ "/" ++ path

def names (path : String) : List String :=
  (Text.pieces (· = '/') path.toList).map String.ofList

/-- The steps from the directory at which a path starts. A path that ends in a slash asks for a
directory, as one that ends in `.` does. -/
def steps (path : String) : List String :=
  let steps := (names path).filter (!·.isEmpty)
  if path.endsWith "/" then steps ++ ["."] else steps

/-- The steps from the root, for a path seen from the directory `base`. -/
def absolute (base : List String) (path : String) : List String :=
  if isAbsolute path then steps path else base ++ steps path

/-- Drops what does not lead anywhere from the end of a list of names in reverse. -/
def dropIdle : List String → List String
  | [] => []
  | [name] => [name]
  | name :: rest => if name.isEmpty ∨ name = "." then dropIdle rest else name :: rest

/-- The path without its last step; the root and the empty path have none. -/
def parent? (path : String) : Option String :=
  match dropIdle (names path).reverse with
  | [] => none
  | [name] => if name.isEmpty then none else some ""
  | _ :: rest =>
    let path := "/".intercalate (dropIdle rest).reverse
    some (if path.isEmpty then "/" else path)

def ofSteps (steps : List String) : String := "/" ++ "/".intercalate steps

end Path

inductive FileFault where
  | notFound
  | notDirectory
  | isDirectory
  | alreadyExists
  | notText
  deriving DecidableEq, Repr

def FileFault.message : FileFault → String
  | notFound => "No such file or directory (os error 2)"
  | notDirectory => "Not a directory (os error 20)"
  | isDirectory => "Is a directory (os error 21)"
  | alreadyExists => "File exists (os error 17)"
  | notText => "stream did not contain valid UTF-8"

inductive FileEntry where
  | file (content : Bytes)
  | directory
  deriving DecidableEq

/-- What stands at the ends of the steps from the root, which is a directory. Paths that are not
absolute start in the working directory. -/
structure FileTree where
  working : List String
  entries : List (List String × FileEntry)

namespace FileTree

def entry? (tree : FileTree) (place : List String) : Option FileEntry :=
  if place.isEmpty then some .directory else tree.entries.lookup place

def isFile (tree : FileTree) (place : List String) : Bool :=
  match tree.entry? place with
  | some (.file _) => true
  | _ => false

def isDirectory (tree : FileTree) (place : List String) : Bool :=
  tree.entry? place == some .directory

/-- The place to which steps lead. It need not exist, but all on the way must be directories. -/
def locateFrom (tree : FileTree) (place : List String) :
    List String → Except FileFault (List String)
  | [] => .ok place
  | step :: steps =>
    match tree.entry? place with
    | none => .error .notFound
    | some (.file _) => .error .notDirectory
    | some .directory =>
      if step = "." then locateFrom tree place steps
      else if step = ".." then locateFrom tree place.dropLast steps
      else locateFrom tree (place ++ [step]) steps

def steps (tree : FileTree) (path : String) : List String := Path.absolute tree.working path

/-- The place to which a path leads, if something stands there. -/
def canonical? (tree : FileTree) (path : String) : Option (List String) :=
  match tree.locateFrom [] (tree.steps path) with
  | .ok place => (tree.entry? place).map fun _ => place
  | .error _ => none

def read (tree : FileTree) (path : String) : Except FileFault Bytes := do
  match tree.entry? (← tree.locateFrom [] (tree.steps path)) with
  | none => .error .notFound
  | some .directory => .error .isDirectory
  | some (.file content) => .ok content

def put (tree : FileTree) (place : List String) (entry : FileEntry) : FileTree :=
  { tree with entries := (place, entry) :: tree.entries.filter (·.1 != place) }

/-- Replaces a file, or makes a new one in a directory that exists. -/
def write (tree : FileTree) (path : String) (content : Bytes) : Except FileFault FileTree := do
  let place ← tree.locateFrom [] (tree.steps path)
  match tree.entry? place, tree.entry? place.dropLast with
  | some .directory, _ => .error .isDirectory
  | _, some .directory => .ok (tree.put place (.file content))
  | _, some (.file _) => .error .notDirectory
  | _, none => .error .notFound

def makeDirectory (tree : FileTree) (steps : List String) : Except FileFault FileTree := do
  let place ← tree.locateFrom [] steps
  match tree.entry? place, tree.entry? place.dropLast with
  | some _, _ => .error .alreadyExists
  | none, some .directory => .ok (tree.put place .directory)
  | none, some (.file _) => .error .notDirectory
  | none, none => .error .notFound

/-- A directory that is there in the end, whether or not it was there before. -/
def ensureDirectory (tree : FileTree) (steps : List String) : Except FileFault FileTree :=
  match tree.makeDirectory steps with
  | .ok tree => .ok tree
  | .error fault =>
    match tree.locateFrom [] steps with
    | .ok place => if tree.isDirectory place then .ok tree else .error fault
    | .error _ => .error fault

/-- Makes a directory and those around it; the steps are given in reverse. -/
def makeDirectoriesBack (tree : FileTree) : List String → Except FileFault FileTree
  | [] => .ok tree
  | step :: before =>
    match tree.ensureDirectory (before.reverse ++ [step]) with
    | .error .notFound => do
      let tree ← makeDirectoriesBack tree before
      tree.ensureDirectory (before.reverse ++ [step])
    | result => result

def makeDirectories (tree : FileTree) (path : String) : Except FileFault FileTree :=
  tree.makeDirectoriesBack (tree.steps path).reverse

/-- The files below a place, as paths seen from there, in order. -/
def filesBelow (tree : FileTree) (place : List String) : List String :=
  let below := tree.entries.filterMap fun (steps, entry) =>
    match entry with
    | .file _ => if place.isPrefixOf steps then some (steps.drop place.length) else none
    | .directory => none
  (below.map ("/".intercalate ·)).mergeSort (· ≤ ·)

end FileTree

end SymbolSearch
