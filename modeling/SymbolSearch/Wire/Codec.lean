import SymbolSearch.Wire.Message
import SymbolSearch.Text.Utf8

/-!
# Frames

A message travels in a frame: the length of what follows in four bytes, the version of the protocol,
and the parts of the message. Tags take four bytes, except that one byte tells whether an optional
part is there. Texts and lists are preceded by their length in eight bytes.
-/

namespace SymbolSearch

/-- What is wrong with the parts of a message. -/
inductive WireFault where
  | endOfInput
  | textTooLong
  | invalidText (fault : Text.Utf8Fault)
  | unknownVariant (found count : Nat)
  | unknownPresence (found : Nat)
  | invalidFilter (fault : InvalidFilter)
  | bytesLeft
  deriving DecidableEq, Repr

def WireFault.message : WireFault → String
  | endOfInput => "io error: unexpected end of file"
  | textTooLong => "io error: "
  | invalidText fault => s!"string is not valid utf8: {fault.message}"
  | unknownVariant found count =>
    "invalid value: integer `" ++ toString found ++ "`, expected variant index 0 <= i < "
      ++ toString count
  | unknownPresence found => s!"tag for enum is not valid, found {found}"
  | invalidFilter fault => fault.message
  | bytesLeft => "Slice had bytes remaining after deserialization"

inductive WireError where
  | malformed (fault : WireFault)
  | frameTooLarge (length : Nat)
  | lengthMismatch (declared actual : Nat)
  | unsupportedVersion (found : Nat)
  | limitExceeded (fault : LimitExceeded)
  deriving DecidableEq, Repr

namespace Wire

/-- No frame holds more bytes than this after its length. -/
def maxPayload : Nat := 67108864

def version : Nat := 1

end Wire

def WireError.message : WireError → String
  | malformed fault => s!"bincode error: {fault.message}"
  | frameTooLarge length => s!"frame too large: {length} bytes (max {Wire.maxPayload})"
  | lengthMismatch declared actual =>
    s!"frame length mismatch: prefix declares {declared} bytes, {actual} available"
  | unsupportedVersion found => s!"unsupported protocol version {found} (expected {Wire.version})"
  | limitExceeded fault =>
    s!"{fault.what.describe} exceeds limit: {fault.length} (max {fault.what.max})"

namespace Wire

/-! ## Frames -/

def encodeFrame (payload : Bytes) : Except WireError Bytes :=
  if payload.length ≤ maxPayload then .ok (Bytes.ofCount payload.length ++ payload)
  else .error (.frameTooLarge payload.length)

def decodeFrame (frame : Bytes) : Except WireError Bytes :=
  if frame.length < 4 then .error (.lengthMismatch 4 frame.length)
  else
    let declared := Bytes.value (frame.take 4)
    let payload := frame.drop 4
    if maxPayload < declared then .error (.frameTooLarge declared)
    else if declared = payload.length then .ok payload
    else .error (.lengthMismatch declared payload.length)

/-! ## Writing messages -/

def tagBytes (tag : Nat) : Bytes := Bytes.ofCount tag

def textBytes (text : String) : Bytes :=
  let bytes := Bytes.ofString text
  Bytes.ofLength bytes.length ++ bytes

def listBytes {α : Type} (item : α → Bytes) (items : List α) : Bytes :=
  Bytes.ofLength items.length ++ items.flatMap item

def segmentBytes (segment : KeySegment) : Bytes :=
  tagBytes segment.kind.tag ++ (textBytes segment.name ++ (Bytes.ofUInt32 segment.arity
    ++ listBytes textBytes segment.parameters))

def descriptorBytes (descriptor : Descriptor) : Bytes :=
  listBytes segmentBytes descriptor.key.segments ++ (tagBytes descriptor.key.origin.tag
    ++ Bytes.ofUInt32 descriptor.project.number)

def projectBytes : Option ProjectId → Bytes
  | none => [0]
  | some project => 1 :: Bytes.ofUInt32 project.number

def queryTag : NameQuery → Nat
  | .exact _ => 0
  | .ignoreCase _ => 1
  | .fuzzy _ => 2

def requestBytes (request : FindRequest) : Bytes :=
  request.checksum.toBytes ++ (projectBytes request.project
    ++ (tagBytes (queryTag request.query) ++ (textBytes request.query.text
      ++ (Bytes.littleEndian 1 request.filter.bits ++ tagBytes request.scope.tag))))

def messageBytes : Message → Bytes
  | .find request => tagBytes 0 ++ requestBytes request
  | .declarations symbols => tagBytes 1 ++ listBytes descriptorBytes symbols
  | .error text => tagBytes 2 ++ textBytes text

/-- The frame of a message that keeps the limits. -/
def encode (message : Message) : Except WireError Bytes := do
  message.checkLimits.mapError .limitExceeded
  encodeFrame (Bytes.ofCount version ++ messageBytes message)

/-! ## Reading messages -/

abbrev Reader := Bytes.Reader WireFault

def fail {α : Type} (fault : WireFault) : Reader α := Bytes.Reader.fail fault

def readNumber (width : Nat) : Reader Nat := Bytes.Reader.number .endOfInput width

def readWord : Reader UInt32 := Bytes.Reader.uint32 .endOfInput

/-- A tag of an enumeration with `count` cases. -/
def readVariant {α : Type} (count : Nat) (ofTag? : Nat → Option α) : Reader α := do
  let tag ← readNumber 4
  match ofTag? tag with
  | some a => return a
  | none => fail (.unknownVariant tag count)

def readText : Reader String := do
  let length ← readNumber 8
  let bytes ← Bytes.Reader.take .textTooLong length
  match Text.utf8? bytes with
  | some text => return text
  | none => fail (.invalidText ((Text.utf8Fault? 0 bytes).getD ⟨0, none⟩))

def readList {α : Type} (item : Reader α) : Reader (List α) := do
  Bytes.Reader.times item (← readNumber 8)

def readSegment : Reader KeySegment := do
  let kind ← readVariant 11 SymbolKind.ofTag?
  let name ← readText
  let arity ← readWord
  let parameters ← readList readText
  return ⟨kind, name, arity, parameters⟩

def readDescriptor : Reader Descriptor := do
  let segments ← readList readSegment
  let origin ← readVariant 2 SymbolOrigin.ofTag?
  let project ← readWord
  return ⟨⟨segments, origin⟩, ⟨project⟩⟩

def readProject : Reader (Option ProjectId) := do
  let presence ← readNumber 1
  if presence = 0 then return none
  else if presence = 1 then return some ⟨← readWord⟩
  else fail (.unknownPresence presence)

def queryOfTag? : Nat → Option (String → NameQuery)
  | 0 => some .exact
  | 1 => some .ignoreCase
  | 2 => some .fuzzy
  | _ => none

def readFilter : Reader SymbolFilter := do
  match SymbolFilter.ofByte (UInt8.ofNat (← readNumber 1)) with
  | .ok filter => return filter
  | .error fault => fail (.invalidFilter fault)

/-- The 32 bytes are read one by one, so that they are cut short like any number. -/
def readChecksum : Reader Fingerprint := do
  match Fingerprint.ofBytes? (← Bytes.Reader.take .endOfInput 32) with
  | some checksum => return checksum
  | none => fail .endOfInput

def readRequest : Reader FindRequest := do
  let checksum ← readChecksum
  let project ← readProject
  let query ← readVariant 3 queryOfTag?
  let text ← readText
  let filter ← readFilter
  let scope ← readVariant 2 SearchScope.ofTag?
  return ⟨checksum, project, query text, filter, scope⟩

def messageOfTag? : Nat → Option (Reader Message)
  | 0 => some (.find <$> readRequest)
  | 1 => some (.declarations <$> readList readDescriptor)
  | 2 => some (.error <$> readText)
  | _ => none

def readMessage : Reader Message := do
  (← readVariant 3 messageOfTag?)

/-- A payload that is long enough for a version must have the right one. -/
def checkVersion (payload : Bytes) : Except WireError Unit :=
  let found := Bytes.value (payload.take 4)
  if payload.length < 4 ∨ found = version then .ok () else .error (.unsupportedVersion found)

def decode (frame : Bytes) : Except WireError Message := do
  let payload ← decodeFrame frame
  checkVersion payload
  match (do let _ ← readNumber 4; readMessage : Reader Message) payload with
  | .error fault => .error (.malformed fault)
  | .ok (_, _ :: _) => .error (.malformed .bytesLeft)
  | .ok (message, []) =>
    message.checkLimits.mapError .limitExceeded
    return message

end Wire

end SymbolSearch
