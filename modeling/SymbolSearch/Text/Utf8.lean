import SymbolSearch.Bytes

/-!
# UTF-8

Texts from their UTF-8 bytes, and where a byte string stops being UTF-8: the index of the first
character that is cut short or malformed, and the number of its bytes that were read before the
malformation showed.
-/

namespace SymbolSearch.Text

/-- `length` is absent when the bytes end inside the character. -/
structure Utf8Fault where
  index : Nat
  length : Option Nat
  deriving Repr, DecidableEq

def Utf8Fault.message (fault : Utf8Fault) : String :=
  match fault.length with
  | some length =>
    s!"invalid utf-8 sequence of {length} bytes from index {fault.index}"
  | none => s!"incomplete utf-8 byte sequence from index {fault.index}"

def continuation : UInt8 × UInt8 := (0x80, 0xBF)

/-- The ranges of the bytes that must follow the first byte of a character. -/
def followers? (lead : UInt8) : Option (List (UInt8 × UInt8)) :=
  if lead < 0x80 then some []
  else if lead < 0xC2 then none
  else if lead < 0xE0 then some [continuation]
  else if lead = 0xE0 then some [(0xA0, 0xBF), continuation]
  else if lead = 0xED then some [(0x80, 0x9F), continuation]
  else if lead < 0xF0 then some [continuation, continuation]
  else if lead = 0xF0 then some [(0x90, 0xBF), continuation, continuation]
  else if lead < 0xF4 then some [continuation, continuation, continuation]
  else if lead = 0xF4 then some [(0x80, 0x8F), continuation, continuation]
  else none

/-- The number of bytes that fit, or how the character fails after `read` bytes of it. -/
def follow (read : Nat) : List (UInt8 × UInt8) → Bytes → Except (Option Nat) Nat
  | [], _ => .ok read
  | _ :: _, [] => .error none
  | range :: ranges, b :: rest =>
    if range.1 ≤ b ∧ b ≤ range.2 then follow (read + 1) ranges rest else .error (some read)

/-- The first fault of a byte string whose first byte has the given index. -/
def utf8Fault? (index : Nat) : Bytes → Option Utf8Fault
  | [] => none
  | lead :: rest =>
    match followers? lead with
    | none => some ⟨index, some 1⟩
    | some ranges =>
      match follow 1 ranges rest with
      | .error length => some ⟨index, length⟩
      | .ok length => utf8Fault? (index + length) (rest.drop (length - 1))
termination_by bytes => bytes.length
decreasing_by
  simp only [List.length_drop, List.length_cons]
  omega

def utf8? (bytes : Bytes) : Option String := String.fromUTF8? bytes.toByteArray

end SymbolSearch.Text
