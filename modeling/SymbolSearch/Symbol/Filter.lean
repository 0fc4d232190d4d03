import SymbolSearch.Symbol.Kind
import SymbolSearch.Text.Blank
import SymbolSearch.Bytes

/-!
# Symbol filters

A filter is a set of categories. It is written as a list of names between commas or bars, and
stored as three bits.
-/

namespace SymbolSearch

structure SymbolFilter where
  namespaces : Bool
  types : Bool
  members : Bool
  deriving DecidableEq, Repr

/-- The text that could not be read as a filter. -/
structure InvalidFilter where
  text : String
  deriving DecidableEq, Repr

def InvalidFilter.message (fault : InvalidFilter) : String :=
  "invalid symbol filter `" ++ fault.text ++ "`"

namespace SymbolFilter

def none : SymbolFilter := ⟨false, false, false⟩

def all : SymbolFilter := ⟨true, true, true⟩

def ofCategory : SymbolCategory → SymbolFilter
  | .namespaces => ⟨true, false, false⟩
  | .types => ⟨false, true, false⟩
  | .members => ⟨false, false, true⟩

def union (a b : SymbolFilter) : SymbolFilter :=
  ⟨a.namespaces || b.namespaces, a.types || b.types, a.members || b.members⟩

def inter (a b : SymbolFilter) : SymbolFilter :=
  ⟨a.namespaces && b.namespaces, a.types && b.types, a.members && b.members⟩

def contains (a b : SymbolFilter) : Bool := a.inter b == b

def isEmpty (filter : SymbolFilter) : Bool := filter == none

def accepts (filter : SymbolFilter) (kind : SymbolKind) : Bool :=
  match kind.category with
  | .namespaces => filter.namespaces
  | .types => filter.types
  | .members => filter.members

def bits (filter : SymbolFilter) : Nat :=
  filter.namespaces.toNat + 2 * filter.types.toNat + 4 * filter.members.toNat

def ofBits? (bits : Nat) : Option SymbolFilter :=
  if bits < 8 then some ⟨bits.testBit 0, bits.testBit 1, bits.testBit 2⟩ else .none

theorem ofBits?_bits (filter : SymbolFilter) : ofBits? filter.bits = some filter := by
  obtain ⟨a, b, c⟩ := filter
  cases a <;> cases b <;> cases c <;> decide

theorem bits_of_ofBits? {bits : Nat} {filter : SymbolFilter} (h : ofBits? bits = some filter) :
    filter.bits = bits := by
  unfold ofBits? at h
  split at h
  · rename_i hlt
    match bits, hlt with
    | 0, _ | 1, _ | 2, _ | 3, _ | 4, _ | 5, _ | 6, _ | 7, _ => cases h; decide
  · cases h

/-- A byte with bits beyond the three is named in hexadecimal. -/
def ofByte (byte : UInt8) : Except InvalidFilter SymbolFilter :=
  match ofBits? byte.toNat with
  | some filter => .ok filter
  | .none => .error ⟨"0x" ++ Bytes.hex [byte]⟩

def ofName? (name : String) : Option SymbolFilter :=
  match name.toLower with
  | "all" => some all
  | "none" => some none
  | "namespace" | "namespaces" => some (ofCategory .namespaces)
  | "type" | "types" => some (ofCategory .types)
  | "member" | "members" => some (ofCategory .members)
  | _ => .none

def parse (text : String) : Except InvalidFilter SymbolFilter :=
  (Text.pieces (fun c => c = ',' ∨ c = '|') text.toList).foldlM (fun filter piece =>
    let name := Text.trim (String.ofList piece)
    match ofName? name with
    | some named => .ok (filter.union named)
    | .none => .error ⟨name⟩) none

def describe (filter : SymbolFilter) : String :=
  let names := [(filter.namespaces, "namespace"), (filter.types, "type"), (filter.members, "member")]
  let shown := (names.filter (·.1)).map (·.2)
  "SymbolFilter(" ++ (if shown.isEmpty then "none" else " | ".intercalate shown) ++ ")"

end SymbolFilter

end SymbolSearch
