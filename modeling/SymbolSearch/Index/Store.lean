import SymbolSearch.Files
import SymbolSearch.Index.Codec

/-!
# The store of indexes

A directory keeps the index of every project's content in a file of its own, named after the project
and the fingerprint, so that files of different contents never meet.
-/

namespace SymbolSearch

namespace IndexStore

/-- The path of the file for a project's content in the directory `directory`. -/
def path (directory : String) (project : ProjectId) (fingerprint : Fingerprint) : String :=
  Path.join directory s!"{project.number.toNat}-{fingerprint.hex}.nsyt"

def ioError (path : String) (fault : FileFault) : IndexError := .io path fault.message

/-- The stored index if there is a file for it. The file must be that of the expected content. -/
def load (files : FileTree) (path : String) (expected : Fingerprint) :
    Except IndexError (Option SymbolIndex) := do
  match files.read path with
  | .error .notFound => return none
  | .error fault => throw (ioError path fault)
  | .ok bytes =>
    let index ← IndexCodec.decode bytes
    if index.fingerprint = expected then return some index
    else throw (.fingerprintMismatch expected index.fingerprint)

/-- Writes an index to its file, after making the directory if it is not there yet. -/
def save (files : FileTree) (path : String) (index : SymbolIndex) :
    Except IndexError FileTree := do
  let directory := (Path.parent? path).getD ""
  let files ← (files.makeDirectories directory).mapError (ioError path)
  (files.write path (IndexCodec.encode index)).mapError (ioError path)

end IndexStore

end SymbolSearch
