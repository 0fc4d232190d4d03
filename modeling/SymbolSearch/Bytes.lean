/-!
# Byte strings

Byte strings as lists, little-endian numbers in them, and readers that consume a byte string from
the front. A number of a given width reads back from its bytes, and every byte string of that width
is the little-endian form of the number it denotes.
-/

namespace SymbolSearch

abbrev Bytes := List UInt8

namespace Bytes

/-- The low `width` bytes of a number, the lowest first. -/
def littleEndian : Nat → Nat → Bytes
  | 0, _ => []
  | width + 1, n => UInt8.ofNat n :: littleEndian width (n / 256)

/-- The number that a byte string denotes with its lowest byte first. -/
def value : Bytes → Nat
  | [] => 0
  | b :: rest => b.toNat + 256 * value rest

/-- The least number that does not fit into `width` bytes. -/
def limit : (width : Nat) → Nat
  | 0 => 1
  | width + 1 => 256 * limit width

theorem length_littleEndian (width n : Nat) : (littleEndian width n).length = width := by
  induction width generalizing n with
  | zero => rfl
  | succ width ih => simp [littleEndian, ih]

theorem value_lt (bytes : Bytes) : bytes.value < limit bytes.length := by
  induction bytes with
  | nil => decide
  | cons b rest ih =>
    have hb := b.toNat_lt
    simp only [value, List.length_cons, limit]
    omega

theorem value_littleEndian (width n : Nat) : (littleEndian width n).value = n % limit width := by
  induction width generalizing n with
  | zero => simp [littleEndian, value, limit, Nat.mod_one]
  | succ width ih =>
    have byte : (UInt8.ofNat n).toNat = n % 256 := UInt8.toNat_ofNat'
    rw [littleEndian, value, ih, byte, limit, Nat.mod_mul]

theorem littleEndian_value (bytes : Bytes) : littleEndian bytes.length bytes.value = bytes := by
  induction bytes with
  | nil => rfl
  | cons b rest ih =>
    have hb := b.toNat_lt
    have hd : (b.toNat + 256 * value rest) / 256 = value rest := by omega
    have hm : UInt8.ofNat (b.toNat + 256 * value rest) = b := by
      apply UInt8.toNat_inj.mp
      simp only [UInt8.toNat_ofNat']
      omega
    simp [littleEndian, value, hd, hm, ih]

def ofUInt32 (word : UInt32) : Bytes := littleEndian 4 word.toNat

/-- A count in four bytes, modulo `2 ^ 32`. -/
def ofCount (n : Nat) : Bytes := littleEndian 4 n

/-- A length in eight bytes, modulo `2 ^ 64`. -/
def ofLength (n : Nat) : Bytes := littleEndian 8 n

/-- The UTF-8 bytes of a text. -/
def ofString (text : String) : Bytes := text.toUTF8.toList

def hexDigit (n : Nat) : Char := if n < 10 then Char.ofNat (48 + n) else Char.ofNat (87 + n)

/-- Two lowercase hexadecimal digits for every byte. -/
def hex (bytes : Bytes) : String :=
  String.ofList (bytes.flatMap fun b => [hexDigit (b.toNat / 16), hexDigit (b.toNat % 16)])

def hexValue? (c : Char) : Option Nat :=
  if '0' ≤ c ∧ c ≤ '9' then some (c.toNat - 48)
  else if 'a' ≤ c ∧ c ≤ 'f' then some (c.toNat - 87)
  else if 'A' ≤ c ∧ c ≤ 'F' then some (c.toNat - 55)
  else none

def ofHexDigits? : List Char → Option Bytes
  | [] => some []
  | high :: low :: rest => do
    return UInt8.ofNat (16 * (← hexValue? high) + (← hexValue? low)) :: (← ofHexDigits? rest)
  | [_] => none

def ofHex? (text : String) : Option Bytes := ofHexDigits? text.toList

/-- Consumes bytes from the front and returns what is left, or fails. -/
abbrev Reader (ε : Type) := StateT Bytes (Except ε)

variable {ε : Type}

/-- The next `n` bytes. -/
def Reader.take (short : ε) (n : Nat) : Reader ε Bytes := fun input =>
  let taken := input.take n
  if taken.length = n then .ok (taken, input.drop n) else .error short

/-- The next `width` bytes as a number. -/
def Reader.number (short : ε) (width : Nat) : Reader ε Nat :=
  value <$> Reader.take short width

def Reader.uint32 (short : ε) : Reader ε UInt32 :=
  UInt32.ofNat <$> Reader.number short 4

def Reader.fail {α : Type} (error : ε) : Reader ε α := fun _ => .error error

def Reader.ensure (condition : Bool) (error : ε) : Reader ε Unit := fun input =>
  if condition then .ok ((), input) else .error error

/-- What a reader makes of the next bytes, `count` times in a row. -/
def Reader.times {α : Type} (item : Reader ε α) : Nat → Reader ε (List α)
  | 0 => pure []
  | count + 1 => do
    let head ← item
    let tail ← Reader.times item count
    return head :: tail

end Bytes

end SymbolSearch
