import SymbolSearch.Digest

/-!
# Fingerprints

A fingerprint is the digest of a byte string. Contents are fingerprinted by writing their parts one
after another; every text is preceded by its length, so that the parts cannot run into each other.
-/

namespace SymbolSearch

structure Fingerprint where
  bytes : Vector UInt8 32
  deriving DecidableEq, Repr

namespace Fingerprint

def ofContent (content : Bytes) : Fingerprint := ⟨Digest.digest content⟩

def ofBytes? (bytes : Bytes) : Option Fingerprint :=
  if h : bytes.length = 32 then some ⟨⟨bytes.toArray, by simpa using h⟩⟩ else none

def toBytes (fingerprint : Fingerprint) : Bytes := fingerprint.bytes.toList

def hex (fingerprint : Fingerprint) : String := Bytes.hex fingerprint.toBytes

/-- A short form that keeps the first eight bytes. -/
def describe (fingerprint : Fingerprint) : String :=
  "Fingerprint(" ++ Bytes.hex (fingerprint.toBytes.take 8) ++ ")"

theorem length_toBytes (fingerprint : Fingerprint) : fingerprint.toBytes.length = 32 :=
  Vector.length_toList

theorem ofBytes?_toBytes (fingerprint : Fingerprint) :
    ofBytes? fingerprint.toBytes = some fingerprint := by
  obtain ⟨⟨bytes, size⟩⟩ := fingerprint
  simp [ofBytes?, toBytes, Vector.toList, size]

theorem toBytes_of_ofBytes? {bytes : Bytes} {fingerprint : Fingerprint}
    (h : ofBytes? bytes = some fingerprint) : fingerprint.toBytes = bytes := by
  unfold ofBytes? at h
  split at h
  · cases h; simp [toBytes]
  · cases h

/-- A text, after its length in eight bytes. -/
def textPart (text : String) : Bytes :=
  let bytes := Bytes.ofString text
  Bytes.ofLength bytes.length ++ bytes

end Fingerprint

end SymbolSearch
