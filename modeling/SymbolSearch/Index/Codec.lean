import SymbolSearch.Index.Table
import SymbolSearch.Job
import SymbolSearch.Text.Utf8

/-!
# Stored indexes

An index as a byte string: a mark, the version of the format, the fingerprint, the number of nodes,
and then the nodes in pre-order with their names, their numbers of children and their symbols. All
numbers take four bytes, the lowest first. Numbers of nodes and handles are not stored, as they
follow from the order.
-/

namespace SymbolSearch

/-- What is wrong with the bytes of a stored index. -/
inductive Corruption where
  | missingRoot
  | rootNotEmpty
  | emptyNode
  | tooManyNodes
  | tooFewNodes
  | unknownKind
  | unknownAccessibility
  | unknownOrigin
  | parentOutOfRange
  | parentElsewhere
  | parentMissing
  | invertedRange
  | invalidText
  | trailingBytes
  deriving DecidableEq, Repr

def Corruption.describe : Corruption → String
  | missingRoot => "missing root node"
  | rootNotEmpty => "root node must be empty"
  | emptyNode => "node without name or symbols"
  | tooManyNodes => "more nodes than the tree has room for"
  | tooFewNodes => "node count does not match tree shape"
  | unknownKind => "unknown symbol kind"
  | unknownAccessibility => "unknown accessibility"
  | unknownOrigin => "unknown origin"
  | parentOutOfRange => "parent handle out of range"
  | parentElsewhere => "parent symbol is not on the parent node"
  | parentMissing => "nested symbol without a parent"
  | invertedRange => "inverted location range"
  | invalidText => "name is not valid UTF-8"
  | trailingBytes => "trailing bytes after index"

inductive IndexError where
  | io (path cause : String)
  | badMagic
  | unsupportedVersion (found : UInt32)
  | truncated
  | corrupt (what : Corruption)
  | fingerprintMismatch (expected found : Fingerprint)
  | cancelled
  | buildPanicked
  deriving DecidableEq, Repr

/-- The version of the format. -/
def indexVersion : UInt32 := 1

def IndexError.message : IndexError → String
  | io path cause => s!"failed to access {path}: {cause}"
  | badMagic => "not a symbol tree index (bad magic)"
  | unsupportedVersion found =>
    s!"unsupported symbol tree index version {found.toNat} (expected {indexVersion.toNat})"
  | truncated => "symbol tree index is truncated"
  | corrupt what => s!"symbol tree index is corrupt: {what.describe}"
  | fingerprintMismatch expected found =>
    s!"symbol tree index fingerprint mismatch: expected {expected.hex}, found {found.hex}"
  | cancelled => "index build cancelled"
  | buildPanicked => "index build panicked"

def IndexError.ofJob : JobError → IndexError
  | .cancelled => cancelled
  | .panicked => buildPanicked

/-- The bytes are to blame, so that building the index again mends the matter. -/
def IndexError.isDataIntegrity : IndexError → Bool
  | badMagic | unsupportedVersion _ | truncated | corrupt _ | fingerprintMismatch _ _ => true
  | io _ _ | cancelled | buildPanicked => false

namespace IndexCodec

/-- The bytes of `NSYT`. -/
def magic : Bytes := [78, 83, 89, 84]

/-- Stands for the parent of a symbol that has none. -/
def noParent : Nat := 0xFFFFFFFF

def textBytes (text : String) : Bytes :=
  let bytes := Bytes.ofString text
  Bytes.ofCount bytes.length ++ bytes

def locationBytes (location : Location) : Bytes :=
  Bytes.ofUInt32 location.document.number ++ Bytes.ofUInt32 location.range.start
    ++ Bytes.ofUInt32 location.range.stop

/-- A symbol whose parent node lists its symbols from the handle `containers` on. -/
def entryBytes (containers : Nat) (entry : Entry) : Bytes :=
  Bytes.littleEndian 1 entry.signature.kind.tag
    ++ Bytes.littleEndian 1 entry.accessibility.tag
    ++ Bytes.littleEndian 1 entry.signature.origin.tag
    ++ Bytes.ofUInt32 entry.signature.arity
    ++ Bytes.ofCount entry.signature.parameters.length
    ++ entry.signature.parameters.flatMap textBytes
    ++ Bytes.ofCount ((entry.signature.container.map (containers + ·)).getD noParent)
    ++ Bytes.ofCount entry.locations.length
    ++ entry.locations.flatMap locationBytes

def headBytes (name : String) (children symbols : Nat) : Bytes :=
  textBytes name ++ Bytes.ofCount children ++ Bytes.ofCount symbols

mutual

def nodeBytes (containers handle : Nat) : SymbolNode → Bytes
  | ⟨name, entries, children⟩ =>
    headBytes name children.length entries.length
      ++ (entries.flatMap (entryBytes containers)
        ++ forestBytes handle (handle + entries.length) children)

def forestBytes (containers handle : Nat) : List SymbolNode → Bytes
  | [] => []
  | node :: rest =>
    nodeBytes containers handle node ++ forestBytes containers (handle + node.symbolCount) rest

end

def encode (index : SymbolIndex) : Bytes :=
  magic ++ (Bytes.ofUInt32 indexVersion ++ (index.fingerprint.toBytes
    ++ (Bytes.ofCount (SymbolNode.nodeCountAll index.forest + 1)
      ++ (headBytes "" index.forest.length 0 ++ forestBytes 0 0 index.forest))))

abbrev Reader := Bytes.Reader IndexError

def readWord : Reader UInt32 := Bytes.Reader.uint32 .truncated

def readCount : Reader Nat := Bytes.Reader.number .truncated 4

def fail {α : Type} (what : Corruption) : Reader α := Bytes.Reader.fail (.corrupt what)

def orCorrupt {α : Type} (what : Corruption) : Option α → Reader α
  | some a => pure a
  | none => fail what

def readText : Reader String := do
  let length ← readCount
  let bytes ← Bytes.Reader.take .truncated length
  orCorrupt .invalidText (Text.utf8? bytes)

def readTag {α : Type} (what : Corruption) (ofTag? : Nat → Option α) : Reader α := do
  orCorrupt what (ofTag? (← Bytes.Reader.number .truncated 1))

def readLocation : Reader Location := do
  let document ← readWord
  let start ← readWord
  let stop ← readWord
  let range ← orCorrupt .invertedRange (TextRange.ofBounds? start stop)
  return ⟨⟨document⟩, range⟩

/-- The node around the one that is read: its symbols have the handles from `first` on. Only the
root has none. -/
structure Enclosing where
  first : Nat
  count : Nat

/-- The position of a symbol's parent on the enclosing node. `handle` symbols precede the symbol. -/
def readContainer (enclosing : Enclosing) (handle : Nat) : Reader (Option Nat) := do
  let parent ← readCount
  if parent = noParent then
    if enclosing.count = 0 then return none else fail .parentMissing
  else if handle ≤ parent then fail .parentOutOfRange
  else if enclosing.first ≤ parent ∧ parent < enclosing.first + enclosing.count then
    return some (parent - enclosing.first)
  else fail .parentElsewhere

def readEntry (enclosing : Enclosing) (handle : Nat) : Reader Entry := do
  let kind ← readTag .unknownKind SymbolKind.ofTag?
  let accessibility ← readTag .unknownAccessibility Accessibility.ofTag?
  let origin ← readTag .unknownOrigin SymbolOrigin.ofTag?
  let arity ← readWord
  let parameters ← Bytes.Reader.times readText (← readCount)
  let container ← readContainer enclosing handle
  let locations ← Bytes.Reader.times readLocation (← readCount)
  return ⟨⟨kind, arity, parameters, origin, container⟩, accessibility, locations⟩

def readEntries (enclosing : Enclosing) : Nat → Nat → Reader (List Entry)
  | _, 0 => pure []
  | handle, count + 1 => do
    let entry ← readEntry enclosing handle
    let entries ← readEntries enclosing (handle + 1) count
    return entry :: entries

/-- How many nodes have not been read yet, and how many symbols have. -/
structure Progress where
  nodes : Nat
  symbols : Nat

/-- The next `count` siblings with all below them. There are no more nodes than `fuel`. -/
def readForest (enclosing : Enclosing) :
    Nat → Nat → Progress → Reader (List SymbolNode × Progress)
  | _, 0, progress => pure ([], progress)
  | 0, _ + 1, _ => fail .tooFewNodes
  | fuel + 1, count + 1, progress => do
    if progress.nodes = 0 then fail .tooFewNodes
    let name ← readText
    let children ← readCount
    let symbols ← readCount
    if name.isEmpty ∨ symbols = 0 then fail .emptyNode
    let entries ← readEntries enclosing progress.symbols symbols
    let inside : Progress := ⟨progress.nodes - 1, progress.symbols + symbols⟩
    let (forest, progress) ← readForest ⟨progress.symbols, symbols⟩ fuel children inside
    let (siblings, progress) ← readForest enclosing fuel count progress
    return (⟨name, entries, forest⟩ :: siblings, progress)

def readIndex : Reader SymbolIndex := do
  if (← Bytes.Reader.take .truncated 4) ≠ magic then Bytes.Reader.fail .badMagic
  let version ← readWord
  if version ≠ indexVersion then Bytes.Reader.fail (.unsupportedVersion version)
  let fingerprint := Fingerprint.ofBytes? (← Bytes.Reader.take .truncated 32)
  let nodes ← readCount
  if nodes = 0 then fail .missingRoot
  let name ← readText
  let children ← readCount
  let symbols ← readCount
  if ¬ name.isEmpty ∨ symbols ≠ 0 then fail .rootNotEmpty
  let (forest, progress) ← readForest ⟨0, 0⟩ nodes children ⟨nodes - 1, 0⟩
  if progress.nodes ≠ 0 then fail .tooManyNodes
  match fingerprint with
  | some fingerprint => return { fingerprint, forest }
  | none => Bytes.Reader.fail .truncated

def decode (bytes : Bytes) : Except IndexError SymbolIndex :=
  match readIndex bytes with
  | .ok (index, []) => .ok index
  | .ok (_, _ :: _) => .error (.corrupt .trailingBytes)
  | .error error => .error error

/-- A stream that hands out at most `chunk` bytes at a time, and may break when more than a number
of bytes are asked of it. It ends when it hands out none. -/
structure Source where
  bytes : Bytes
  chunk : Nat
  breaksAfter : Option Nat

/-- The index that a stream holds, if it can be read to its end. -/
def readAll (source : Source) : Except IndexError SymbolIndex :=
  let received := if source.chunk = 0 then [] else source.bytes
  match source.breaksAfter with
  | some limit =>
    if limit < received.length then .error (.io "" "stream broke") else decode received
  | none => decode received

end IndexCodec

end SymbolSearch
