import Mathlib.Algebra.Ring.Int.Defs
import SymbolSearch.Proofs.Pattern.Humps
import SymbolSearch.Proofs.Pattern.Spellings

/-!
# Alignments

An alignment cuts a pattern into chunks, each of which stands at the beginning of a hump of a name.
Its value counts the characters, the humps that are skipped and the humps that follow each other.
The values of the alignments are the worths of the spellings by all humps of the name.
-/

namespace SymbolSearch.Pattern

variable {humps : List Bytes} {name pattern : Bytes} {skip bonus worth : Int} {first : Nat}

/-- A chunk of a pattern, and the index of the hump at whose beginning it stands. -/
structure Chunk where
  hump : Nat
  bytes : Bytes

/-- The hump with index `j` reaches from the start of a word to the next start, or to the end. -/
def hump? (name : Bytes) (j : Nat) : Option Bytes :=
  (wordStarts name)[j]?.map fun start =>
    (name.take ((wordStarts name)[j + 1]?.getD name.length)).drop start

/-- A way to write a pattern with beginnings of humps of a name, from left to right. -/
structure Alignment (name pattern : Bytes) where
  chunks : List Chunk
  increasing : (chunks.map (·.hump)).Pairwise (· < ·)
  writes : chunks.flatMap (·.bytes) = pattern
  nonempty : ∀ chunk ∈ chunks, chunk.bytes ≠ []
  begins : ∀ chunk ∈ chunks,
    ∃ hump, hump? name chunk.hump = some hump ∧ foldBytes chunk.bytes <+: foldBytes hump

/-- What it is worth to write a pattern of this length with these humps. -/
def valueOf (length : Nat) (indices : List Nat) : Int :=
  let links := indices.zip indices.tail
  10 * length - 8 * indices.headD 0 - 3 * (links.map fun (i, j) => (j - i - 1 : Int)).sum
    + 5 * links.countP fun (i, j) => j = i + 1

def Alignment.value {name pattern : Bytes} (alignment : Alignment name pattern) : Int :=
  valueOf pattern.length (alignment.chunks.map (·.hump))

/-- The chunks write the pattern with humps from `first` on. -/
def Aligns (humps : List Bytes) : Nat → Bytes → List Chunk → Prop
  | _, pattern, [] => pattern = []
  | first, pattern, chunk :: chunks =>
    first ≤ chunk.hump ∧ chunk.bytes ≠ []
      ∧ (∃ hump, humps[chunk.hump]? = some hump ∧ foldBytes chunk.bytes <+: foldBytes hump)
      ∧ ∃ rest, chunk.bytes ++ rest = pattern ∧ Aligns humps (chunk.hump + 1) rest chunks

/-- The worth of chunks one by one, in the terms of `Spells`. -/
def worthFrom (skip bonus : Int) (first : Nat) : List Chunk → Int
  | [] => 0
  | chunk :: chunks =>
    worthFrom skippedHump neighbourBonus (chunk.hump + 1) chunks
      + perCharacter * chunk.bytes.length - skip * (chunk.hump - first : Nat)
      + if chunk.hump - first = 0 then bonus else 0

theorem aligns_iff {chunks : List Chunk} : Aligns humps first pattern chunks
    ↔ (chunks.map (·.hump)).Pairwise (· < ·) ∧ (∀ chunk ∈ chunks, first ≤ chunk.hump)
      ∧ chunks.flatMap (·.bytes) = pattern ∧ (∀ chunk ∈ chunks, chunk.bytes ≠ [])
      ∧ ∀ chunk ∈ chunks,
        ∃ hump, humps[chunk.hump]? = some hump ∧ foldBytes chunk.bytes <+: foldBytes hump := by
  induction chunks generalizing first pattern with
  | nil => simp [Aligns, eq_comm]
  | cons chunk chunks ih =>
    simp only [Aligns, ih, List.map_cons, List.pairwise_cons, List.forall_mem_map,
      List.forall_mem_cons, List.flatMap_cons]
    constructor
    · rintro ⟨hfirst, hne, hbegins, rest, rfl, hincreasing, hafter, rfl, hnonempty, hall⟩
      refine ⟨⟨hafter, hincreasing⟩, ⟨hfirst, fun other hother => ?_⟩, rfl, ⟨hne, hnonempty⟩,
        hbegins, hall⟩
      have := hafter other hother
      omega
    · rintro ⟨⟨hafter, hincreasing⟩, ⟨hfirst, -⟩, rfl, ⟨hne, hnonempty⟩, hbegins, hall⟩
      exact ⟨hfirst, hne, hbegins, _, rfl, hincreasing, hafter, rfl, hnonempty, hall⟩

theorem Aligns.spells {chunks : List Chunk} (h : Aligns humps first pattern chunks) :
    Spells humps skip bonus first pattern (worthFrom skip bonus first chunks) := by
  induction chunks generalizing first pattern skip bonus with
  | nil =>
    obtain rfl : pattern = [] := h
    exact .done
  | cons chunk chunks ih =>
    obtain ⟨hfirst, hne, ⟨hump, hhump, hprefix⟩, rest, rfl, hrest⟩ := h
    obtain ⟨k, hk⟩ : ∃ k, chunk.bytes.length = k + 1 :=
      Nat.exists_eq_succ_of_ne_zero (List.length_eq_zero_iff.not.2 hne)
    have hindex : first + (chunk.hump - first) = chunk.hump := by omega
    have hlater : Spells humps skippedHump neighbourBonus (first + (chunk.hump - first) + 1)
        ((chunk.bytes ++ rest).drop (k + 1))
        (worthFrom skippedHump neighbourBonus (chunk.hump + 1) chunks) := by
      rw [hindex, ← hk, List.drop_left]
      exact ih hrest
    have htake : k < commonPrefix (foldBytes hump) (foldBytes (chunk.bytes ++ rest)) := by
      rw [lt_commonPrefix_iff, foldBytes, foldBytes, List.map_append, ← hk,
        ← @List.length_map _ _ chunk.bytes fold, List.take_left]
      refine ⟨?_, hprefix⟩
      simp
      omega
    have hspells := @Spells.take humps skip bonus first _ k _ hump _ (by rw [hindex]; exact hhump)
      htake hlater
    simpa [worthFrom, hk] using hspells

theorem Spells.aligns (h : Spells humps skip bonus first pattern worth) :
    ∃ chunks, Aligns humps first pattern chunks ∧ worthFrom skip bonus first chunks = worth := by
  induction h with
  | done => exact ⟨[], rfl, rfl⟩
  | @take skip bonus first skipped k pattern hump worth hhump hk later ih =>
    obtain ⟨chunks, haligns, rfl⟩ := ih
    obtain ⟨hlength, hprefix⟩ := lt_commonPrefix_iff.1 hk
    rw [foldBytes, List.length_map] at hlength
    refine ⟨⟨first + skipped, pattern.take (k + 1)⟩ :: chunks, ⟨Nat.le_add_right _ _, ?_,
      ⟨hump, hhump, ?_⟩, pattern.drop (k + 1), List.take_append_drop _ _, haligns⟩, ?_⟩
    · apply List.ne_nil_of_length_pos
      simp
      omega
    · rwa [foldBytes, foldBytes, List.map_take] at *
    · have hmin : min (k + 1) pattern.length = k + 1 := by omega
      simp [worthFrom, hmin]

/-- The worth of what follows a chunk from hump `i`, by its links. -/
theorem worthFrom_succ (i : Nat) {chunks : List Chunk} {pattern : Bytes}
    (h : Aligns humps (i + 1) pattern chunks) :
    worthFrom skippedHump neighbourBonus (i + 1) chunks
      = valueOf pattern.length (i :: chunks.map (·.hump)) + 8 * i := by
  induction chunks generalizing i pattern with
  | nil =>
    obtain rfl : pattern = [] := h
    change (0 : Int) = 10 * (0 : Nat) - 8 * i - 3 * 0 + 5 * (0 : Nat) + 8 * i
    omega
  | cons chunk chunks ih =>
    obtain ⟨hfirst, -, -, rest, rfl, hrest⟩ := h
    rw [worthFrom, ih chunk.hump hrest]
    simp only [valueOf, List.map_cons, List.tail_cons, List.zip_cons_cons, List.headD_cons,
      List.sum_cons, List.countP_cons, List.length_append, perCharacter, skippedHump,
      neighbourBonus, decide_eq_true_eq]
    by_cases hnext : chunk.hump = i + 1
    · simp [hnext]
      omega
    · have hne : chunk.hump - (i + 1) ≠ 0 := by omega
      simp [hnext, hne]
      omega

theorem worthFrom_zero {chunks : List Chunk} (h : Aligns humps 0 pattern chunks) :
    worthFrom leadingHump 0 0 chunks = valueOf pattern.length (chunks.map (·.hump)) := by
  cases chunks with
  | nil =>
    obtain rfl : pattern = [] := h
    simp [worthFrom, valueOf]
  | cons chunk chunks =>
    obtain ⟨-, -, -, rest, rfl, hrest⟩ := h
    rw [worthFrom, worthFrom_succ _ hrest]
    simp [valueOf, perCharacter, leadingHump]
    omega

/-- The values of alignments are the worths of a pattern from the first hump on. -/
theorem range_value : Set.range (@Alignment.value name pattern)
    = {v | Spells (humpsAt name (wordStarts name)) leadingHump 0 0 pattern v} := by
  ext v
  constructor
  · rintro ⟨alignment, rfl⟩
    have haligns : Aligns (humpsAt name (wordStarts name)) 0 pattern alignment.chunks := by
      refine aligns_iff.2 ⟨alignment.increasing, fun _ _ => Nat.zero_le _, alignment.writes,
        alignment.nonempty, ?_⟩
      simp only [getElem?_humpsAt]
      exact alignment.begins
    rw [Alignment.value, ← worthFrom_zero haligns]
    exact haligns.spells
  · intro hspells
    obtain ⟨chunks, haligns, rfl⟩ := Spells.aligns hspells
    rw [worthFrom_zero haligns]
    obtain ⟨hincreasing, -, hwrites, hnonempty, hbegins⟩ := aligns_iff.1 haligns
    simp only [getElem?_humpsAt] at hbegins
    exact ⟨⟨chunks, hincreasing, hwrites, hnonempty, hbegins⟩, rfl⟩

end SymbolSearch.Pattern
