import SymbolSearch.Bytes

/-!
# Tree digest

The BLAKE3 digest of a byte string. The string is cut into chunks of 1024 bytes, every chunk into
blocks of 64 bytes. The blocks of a chunk are compressed one after another; the chunks are the
leaves of a binary tree whose left half is always complete.
-/

namespace SymbolSearch.Digest

abbrev Chain := Vector UInt32 8

abbrev Block := Vector UInt32 16

def initialChain : Chain :=
  #v[0x6A09E667, 0xBB67AE85, 0x3C6EF372, 0xA54FF53A, 0x510E527F, 0x9B05688C, 0x1F83D9AB, 0x5BE0CD19]

def permutation : Vector (Fin 16) 16 :=
  #v[2, 6, 3, 10, 7, 0, 4, 13, 1, 11, 12, 5, 9, 14, 15, 8]

def chunkStart : UInt32 := 1

def chunkEnd : UInt32 := 2

def parentNode : UInt32 := 4

def rootNode : UInt32 := 8

def rotateRight (word count : UInt32) : UInt32 := (word >>> count) ||| (word <<< (32 - count))

/-- Stirs two message words into four words of the state. -/
def mix (state : Block) (a b c d : Fin 16) (x y : UInt32) : Block :=
  let a₁ := state[a] + state[b] + x
  let d₁ := rotateRight (state[d] ^^^ a₁) 16
  let c₁ := state[c] + d₁
  let b₁ := rotateRight (state[b] ^^^ c₁) 12
  let a₂ := a₁ + b₁ + y
  let d₂ := rotateRight (d₁ ^^^ a₂) 8
  let c₂ := c₁ + d₂
  let b₂ := rotateRight (b₁ ^^^ c₂) 7
  (((state.set a a₂).set b b₂).set c c₂).set d d₂

/-- One round: the columns of the state, then its diagonals. -/
def round (state message : Block) : Block :=
  let state := mix state 0 4 8 12 message[0] message[1]
  let state := mix state 1 5 9 13 message[2] message[3]
  let state := mix state 2 6 10 14 message[4] message[5]
  let state := mix state 3 7 11 15 message[6] message[7]
  let state := mix state 0 5 10 15 message[8] message[9]
  let state := mix state 1 6 11 12 message[10] message[11]
  let state := mix state 2 7 8 13 message[12] message[13]
  mix state 3 4 9 14 message[14] message[15]

def rounds : Nat → Block → Block → Block
  | 0, state, _ => state
  | count + 1, state, message =>
    rounds count (round state message) (permutation.map (message[·]))

/-- A block that waits to be compressed: the root of the tree is compressed with a flag of its own. -/
structure Pending where
  chain : Chain
  block : Block
  counter : Nat
  length : Nat
  flags : UInt32

def Pending.compress (pending : Pending) (extra : UInt32) : Chain :=
  let chain := pending.chain
  let state := rounds 7
    #v[chain[0], chain[1], chain[2], chain[3], chain[4], chain[5], chain[6], chain[7],
      initialChain[0], initialChain[1], initialChain[2], initialChain[3],
      UInt32.ofNat pending.counter, UInt32.ofNat (pending.counter >>> 32),
      UInt32.ofNat pending.length, pending.flags ||| extra]
    pending.block
  Vector.ofFn fun i : Fin 8 => state[i.val] ^^^ state[i.val + 8]

/-- Little-endian words, the last one filled up with zeros. -/
def words : Bytes → List UInt32
  | [] => []
  | a :: b :: c :: d :: rest =>
    (a.toUInt32 ||| b.toUInt32 <<< 8 ||| c.toUInt32 <<< 16 ||| d.toUInt32 <<< 24) :: words rest
  | short => [UInt32.ofNat (Bytes.value short)]

def blockOf (bytes : Bytes) : Block :=
  let words := (words bytes).toArray
  Vector.ofFn fun i : Fin 16 => words[i.val]?.getD 0

/-- The last block of a chunk, after all blocks before it have been compressed into the chain. -/
def chunkFrom (counter : Nat) (chain : Chain) (flags : UInt32) (bytes : Bytes) : Pending :=
  let rest := bytes.drop 64
  if rest.isEmpty then
    ⟨chain, blockOf bytes, counter, bytes.length, flags ||| chunkEnd⟩
  else
    let head : Pending := ⟨chain, blockOf (bytes.take 64), counter, 64, flags⟩
    chunkFrom counter (head.compress 0) 0 rest
termination_by bytes.length
decreasing_by
  rename_i h
  simp only [rest, List.isEmpty_iff, List.drop_eq_nil_iff] at h
  simp only [List.length_drop]
  omega

def chunk (counter : Nat) (bytes : Bytes) : Pending :=
  chunkFrom counter initialChain chunkStart bytes

def chunks (counter : Nat) (bytes : Bytes) : List Pending :=
  let rest := bytes.drop 1024
  if rest.isEmpty then [chunk counter bytes]
  else chunk counter (bytes.take 1024) :: chunks (counter + 1) rest
termination_by bytes.length
decreasing_by
  rename_i h
  simp only [rest, List.isEmpty_iff, List.drop_eq_nil_iff] at h
  simp only [List.length_drop]
  omega

def parent (left right : Pending) : Pending :=
  let l := left.compress 0
  let r := right.compress 0
  ⟨initialChain, (l ++ r : Vector UInt32 (8 + 8)), 0, 64, parentNode⟩

/-- The largest power of two below `n`, which is the number of leaves on the left of `n` leaves. -/
def leftCount (n : Nat) : Nat := Nat.pow 2 (n - 1).log2

theorem leftCount_lt {n : Nat} (h : 2 ≤ n) : leftCount n < n := by
  have hn : n - 1 ≠ 0 := by omega
  have hle : Nat.pow 2 (n - 1).log2 ≤ n - 1 := (Nat.le_log2 hn).mp (Nat.le_refl _)
  unfold leftCount
  omega

theorem leftCount_pos (n : Nat) : 0 < leftCount n := Nat.two_pow_pos _

def tree : List Pending → Pending
  | [] => chunk 0 []
  | [leaf] => leaf
  | first :: second :: others =>
    let leaves := first :: second :: others
    let left := leftCount leaves.length
    parent (tree (leaves.take left)) (tree (leaves.drop left))
termination_by leaves => leaves.length
decreasing_by
  · have := leftCount_lt (n := (first :: second :: others).length) (by simp)
    simp only [List.length_take]
    omega
  · have := leftCount_pos (first :: second :: others).length
    simp only [List.length_drop, List.length_cons] at this ⊢
    omega

/-- The 32 bytes of the digest. -/
def digest (bytes : Bytes) : Vector UInt8 32 :=
  let root := (tree (chunks 0 bytes)).compress rootNode
  Vector.ofFn fun i : Fin 32 => UInt8.ofNat (root[i.val / 4].toNat >>> (8 * (i.val % 4)))

end SymbolSearch.Digest
