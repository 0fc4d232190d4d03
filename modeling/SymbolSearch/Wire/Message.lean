import SymbolSearch.Index.Query
import SymbolSearch.Symbol.Key
import SymbolSearch.Fingerprint

/-!
# Messages

What the two sides of a remote search say to each other, and the limits that every message keeps, so
that a malformed length cannot make the other side ask for an outsized amount of memory.
-/

namespace SymbolSearch

/-- Names a symbol of a snapshot without any reference to an index. -/
structure Descriptor where
  key : SymbolKey
  project : ProjectId
  deriving DecidableEq, Repr

/-- Asks for the symbols of a snapshot, or of one of its projects. -/
structure FindRequest where
  checksum : Fingerprint
  project : Option ProjectId
  query : NameQuery
  filter : SymbolFilter
  scope : SearchScope
  deriving DecidableEq, Repr

inductive Message where
  | find (request : FindRequest)
  | declarations (symbols : List Descriptor)
  | error (text : String)
  deriving DecidableEq, Repr

/-- What the length of is limited. -/
inductive Limited where
  | queryText
  | declarations
  | errorMessage
  | keySegments
  | segmentName
  | parameters
  | parameter
  deriving DecidableEq, Repr

namespace Limited

def describe : Limited → String
  | queryText => "query text"
  | declarations => "declarations"
  | errorMessage => "error message"
  | keySegments => "key segments"
  | segmentName => "segment name"
  | parameters => "parameters"
  | parameter => "parameter"

/-- The greatest length, in bytes for a text. -/
def max : Limited → Nat
  | declarations => 1000000
  | keySegments | parameters => 256
  | queryText | errorMessage | segmentName | parameter => 16384

end Limited

structure LimitExceeded where
  what : Limited
  length : Nat
  deriving DecidableEq, Repr

namespace Message

def checkLength (what : Limited) (length : Nat) : Except LimitExceeded Unit :=
  if length ≤ what.max then .ok () else .error ⟨what, length⟩

def checkText (what : Limited) (text : String) : Except LimitExceeded Unit :=
  checkLength what text.utf8ByteSize

def checkSegment (segment : KeySegment) : Except LimitExceeded Unit := do
  checkText .segmentName segment.name
  checkLength .parameters segment.parameters.length
  segment.parameters.forM (checkText .parameter)

def checkDescriptor (descriptor : Descriptor) : Except LimitExceeded Unit := do
  checkLength .keySegments descriptor.key.segments.length
  descriptor.key.segments.forM checkSegment

/-- The first limit that the message exceeds, in the order in which it is written. -/
def checkLimits : Message → Except LimitExceeded Unit
  | find request => checkText .queryText request.query.text
  | declarations symbols => do
    checkLength .declarations symbols.length
    symbols.forM checkDescriptor
  | error text => checkText .errorMessage text

end Message

end SymbolSearch
