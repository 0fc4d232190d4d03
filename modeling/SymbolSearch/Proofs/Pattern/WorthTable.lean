import SymbolSearch.Proofs.Pattern.Humps
import SymbolSearch.Proofs.Pattern.Spellings

/-!
# The table of worths

The worths of a pattern can also be kept in one flat table of 32-bit numbers, which is filled from
its end. An ending that cannot be spelled is entered as a number far below zero. Here every look
into the table, every piece that is cut out and every sum is checked, and the bounds are shown that
keep the checks from failing.
-/

namespace SymbolSearch.Pattern

namespace WorthTable

/-- Gives up on a number that does not fit into 32 bits with a sign. -/
def int32? (n : Int) : Option Int := if -2147483648 ≤ n ∧ n ≤ 2147483647 then some n else none

/-- Gives up on bounds that are out of order or beyond the end. -/
def slice? (bytes : Bytes) (start stop : Nat) : Option Bytes :=
  if start ≤ stop ∧ stop ≤ bytes.length then some ((bytes.take stop).drop start) else none

/-- Gives up on a place outside of the table. -/
def set? (table : Array Int) (i : Nat) (n : Int) : Option (Array Int) :=
  if i < table.size then some (table.setIfInBounds i n) else none

/-- What is entered for an ending that cannot be spelled. -/
def unspelled : Int := -536870912

/-- The worth that an entry stands for; one far below zero stands for none. -/
def worth? (entry : Int) : Option Int := if entry ≤ unspelled / 2 then none else some entry

/-- A row is for an ending of the pattern. It has an entry for every hump to go on from, and one
more for when no hump is left. -/
def position (humps row column : Nat) : Nat := row * (humps + 1) + column

/-- The cost of a skipped hump at an ending of the pattern; row 0 is for the whole pattern. -/
def skipAt (row : Nat) : Int := if row = 0 then leadingHump else skippedHump

/-- The worth of `count` characters from one hump after some that are skipped, when the rest of the
pattern is worth `later`. -/
def chunkWorth? (row skipped count : Nat) (later : Int) : Option Int := do
  let skipped ← int32? skipped
  let cost ← int32? (skipAt row * skipped)
  let count ← int32? count
  let gain ← int32? (perCharacter * count)
  let sum ← int32? (later + gain)
  let worth ← int32? (sum - cost)
  if skipped = 0 ∧ 0 < row then int32? (worth + neighbourBonus) else some worth

section

variable (pattern name : Bytes) (starts : List Nat)

/-- Takes the next `count` characters from hump `j` if that is better than the best so far. -/
def tryChunk (table : Array Int) (row first j : Nat) (best : Int) (count : Nat) : Option Int := do
  let entry ← table[position starts.length (row + count) (j + 1)]?
  match worth? entry with
  | none => some best
  | some later => (chunkWorth? row (j - first) count later).map (max best)

/-- Takes whatever begins hump `j` if that is better than the best so far. -/
def tryHump (table : Array Int) (row first : Nat) (best : Int) (j : Nat) : Option Int := do
  let start ← starts[j]?
  let hump ← slice? name start (starts[j + 1]?.getD name.length)
  let rest ← slice? (foldBytes pattern) row pattern.length
  (List.range' 1 (commonPrefix (foldBytes hump) rest)).foldlM
    (tryChunk starts table row first j) best

def enter (row : Nat) (table : Array Int) (first : Nat) : Option (Array Int) := do
  let best ← (List.range' first (starts.length - first)).foldlM
    (tryHump pattern name starts table row first) unspelled
  set? table (position starts.length row first) best

def enterRow (table : Array Int) (row : Nat) : Option (Array Int) :=
  (List.range starts.length).reverse.foldlM (enter pattern name starts row) table

/-- Nothing is spelled yet but the empty ending. -/
def start : Option (Array Int) :=
  (List.range (starts.length + 1)).foldlM
    (fun table column => set? table (position starts.length pattern.length column) 0)
    (Array.replicate ((pattern.length + 1) * (starts.length + 1)) unspelled)

def fill : Option (Array Int) := do
  (List.range pattern.length).reverse.foldlM (enterRow pattern name starts)
    (← start pattern starts)

/-- The score that the table leads to, unless a check fails. -/
def score? : Option (Option Int) := do
  if starts.length < 2 then
    return none
  let entry ← (← fill pattern name starts)[0]?
  match worth? entry with
  | none => return none
  | some worth => return some (← int32? (worth - (← int32? name.length)))

end

/-! ### Loops -/

/-- A loop from `n` down to 0 keeps what each of its steps keeps. -/
theorem exists_foldlM_down {σ : Type} {step : σ → Nat → Option σ} {P : Nat → σ → Prop} {n : Nat}
    (hstep : ∀ i < n, ∀ s, P (i + 1) s → ∃ next, step s i = some next ∧ P i next) {s : σ}
    (h : P n s) : ∃ last, (List.range n).reverse.foldlM step s = some last ∧ P 0 last := by
  induction n generalizing s with
  | zero => exact ⟨s, rfl, h⟩
  | succ n ih =>
    obtain ⟨next, hnext, hP⟩ := hstep n (Nat.lt_succ_self n) s h
    obtain ⟨last, hlast, hzero⟩ := ih (fun i hi => hstep i (by omega)) hP
    refine ⟨last, ?_, hzero⟩
    rw [List.range_succ, List.reverse_append, List.reverse_singleton, List.singleton_append,
      List.foldlM_cons, hnext]
    exact hlast

theorem exists_foldlM_up {σ : Type} {step : σ → Nat → Option σ} {P : Nat → σ → Prop} {n : Nat}
    (hstep : ∀ i < n, ∀ s, P i s → ∃ next, step s i = some next ∧ P (i + 1) next) {s : σ}
    (h : P 0 s) : ∃ last, (List.range n).foldlM step s = some last ∧ P n last := by
  induction n with
  | zero => exact ⟨s, rfl, h⟩
  | succ n ih =>
    obtain ⟨last, hlast, hP⟩ := ih fun i hi => hstep i (by omega)
    obtain ⟨next, hnext, hP⟩ := hstep n (Nat.lt_succ_self n) last hP
    refine ⟨next, ?_, hP⟩
    rw [List.range_succ, List.foldlM_append, hlast]
    simpa using hnext

theorem threshold_eq : unspelled / 2 = -268435456 := by decide

theorem worth?_max {entry worth : Int} (h : -268435456 < worth) :
    worth? (max entry worth) = best (worth? entry) (some worth) := by
  by_cases hentry : entry ≤ unspelled / 2
  · have hmax : max entry worth = worth := by
      rw [threshold_eq] at hentry
      omega
    rw [hmax, worth?, worth?, if_pos hentry, if_neg (by rw [threshold_eq]; omega)]
    rfl
  · rw [worth?, worth?, if_neg hentry, if_neg (by rw [threshold_eq]; omega)]
    rfl

/-- A loop that betters what is best goes through the greatest of ever larger sets. -/
theorem exists_foldlM_best {α : Type} {step : Int → α → Option Int} {sets : α → Set Int}
    {items : List α} (hstep : ∀ item ∈ items, ∀ values entry, IsBest values (worth? entry) →
      ∃ next, step entry item = some next ∧ IsBest (values ∪ sets item) (worth? next))
    {values : Set Int} {entry : Int} (h : IsBest values (worth? entry)) :
    ∃ last, items.foldlM step entry = some last
      ∧ IsBest (values ∪ {v | ∃ item ∈ items, v ∈ sets item}) (worth? last) := by
  induction items generalizing values entry with
  | nil => exact ⟨entry, rfl, by simpa using h⟩
  | cons item items ih =>
    obtain ⟨next, hnext, hbest⟩ := hstep item List.mem_cons_self values entry h
    obtain ⟨last, hlast, hall⟩ :=
      ih (fun other hother => hstep other (List.mem_cons_of_mem _ hother)) hbest
    refine ⟨last, ?_, ?_⟩
    · rw [List.foldlM_cons, hnext]
      exact hlast
    · have hunion : values ∪ {v | ∃ other ∈ item :: items, v ∈ sets other}
          = values ∪ sets item ∪ {v | ∃ other ∈ items, v ∈ sets other} := by
        ext v
        simp [or_assoc]
      rw [hunion]
      exact hall

/-! ### Bounds -/

theorem int32?_eq_some {n : Int} (h : -2147483648 ≤ n ∧ n ≤ 2147483647) : int32? n = some n :=
  if_pos h

theorem skipAt_bounds (row : Nat) : 0 ≤ skipAt row ∧ skipAt row ≤ 8 := by
  rw [skipAt]
  split <;> decide

/-- The bonus for skipping no hump, which the first chunk does not earn. -/
def bonusAt (row : Nat) : Int := if row = 0 then 0 else neighbourBonus

theorem bonusAt_bounds (row : Nat) : 0 ≤ bonusAt row ∧ bonusAt row ≤ 5 := by
  rw [bonusAt]
  split <;> decide

/-- A worth loses at most 8 for every hump and earns at most 15 for every character. -/
theorem bounds_of_spells {humps : List Bytes} {skip bonus worth : Int} {first : Nat} {rest : Bytes}
    (h : Spells humps skip bonus first rest worth) (hskip : 0 ≤ skip ∧ skip ≤ 8)
    (hbonus : 0 ≤ bonus ∧ bonus ≤ 5) (hfirst : first ≤ humps.length) :
    -8 * ((humps.length : Int) - first) ≤ worth ∧ worth ≤ 15 * rest.length := by
  induction h with
  | done =>
    simp only [List.length_nil]
    omega
  | @take skip bonus first skipped k rest hump worth hhump hk later ih =>
    have hlt := (List.getElem?_eq_some_iff.1 hhump).1
    have hlength := (lt_commonPrefix_iff.1 hk).1
    rw [foldBytes, List.length_map] at hlength
    obtain ⟨hlow, hhigh⟩ := ih (by decide) (by decide) hlt
    rw [List.length_drop] at hhigh
    have hcost : skip * skipped ≤ 8 * skipped :=
      Int.mul_le_mul_of_nonneg_right hskip.2 (Int.natCast_nonneg _)
    have hpaid : 0 ≤ skip * skipped := Int.mul_nonneg hskip.1 (Int.natCast_nonneg _)
    simp only [perCharacter]
    push_cast at hlow
    split
    · omega
    · omega

/-- The sums that lead to the worth of one more chunk fit into 32 bits. -/
theorem chunkWorth?_eq_some {humps length row skipped count : Nat} {later : Int}
    (hhumps : humps < Bytes.limit 3) (hlength : length < Bytes.limit 3) (hcount : count ≤ length)
    (hskipped : skipped ≤ humps) (hlow : -8 * ((humps : Int) - skipped) ≤ later)
    (hhigh : later ≤ 15 * ((length : Int) - count)) :
    ∃ worth, chunkWorth? row skipped count later = some worth
      ∧ worth = later + perCharacter * count - skipAt row * skipped
          + (if skipped = 0 then bonusAt row else 0)
      ∧ -268435456 < worth := by
  have hlimit : Bytes.limit 3 = 16777216 := rfl
  have hcost : skipAt row * skipped ≤ 8 * skipped :=
    Int.mul_le_mul_of_nonneg_right (skipAt_bounds row).2 (Int.natCast_nonneg _)
  have hpaid : 0 ≤ skipAt row * skipped :=
    Int.mul_nonneg (skipAt_bounds row).1 (Int.natCast_nonneg _)
  rw [chunkWorth?, int32?_eq_some (by omega)]
  simp only [Option.bind_eq_bind, Option.bind_some, perCharacter]
  generalize skipAt row * (skipped : Int) = cost at hcost hpaid ⊢
  rw [int32?_eq_some (by omega), Option.bind_some, int32?_eq_some (by omega), Option.bind_some,
    int32?_eq_some (by omega), Option.bind_some, int32?_eq_some (by omega), Option.bind_some,
    int32?_eq_some (by omega), Option.bind_some]
  by_cases hzero : skipped = 0
  · by_cases hrow : row = 0
    · refine ⟨_, if_neg (by omega), ?_, by omega⟩
      simp [hzero, hrow, bonusAt]
    · refine ⟨_, (if_pos (by omega)).trans (int32?_eq_some ?_), ?_, ?_⟩
      · simp only [neighbourBonus]
        omega
      · simp [hzero, hrow, bonusAt]
      · simp only [neighbourBonus]
        omega
  · refine ⟨_, if_neg (by omega), ?_, by omega⟩
    simp [hzero]

/-! ### Places -/

theorem position_zero (humps : Nat) : position humps 0 0 = 0 := by simp [position]

theorem position_lt {humps rows row column : Nat} (hrow : row ≤ rows) (hcolumn : column ≤ humps) :
    position humps row column < (rows + 1) * (humps + 1) := by
  have hle := Nat.mul_le_mul_right (humps + 1) hrow
  rw [position, Nat.succ_mul]
  omega

theorem position_injective {humps r c row column : Nat} (hc : c ≤ humps) (hcolumn : column ≤ humps)
    (h : position humps r c = position humps row column) : r = row ∧ c = column := by
  have hdiv (i j : Nat) (hj : j ≤ humps) : position humps i j / (humps + 1) = i := by
    rw [position, Nat.mul_comm, Nat.mul_add_div (Nat.succ_pos humps),
      Nat.div_eq_of_lt (Nat.lt_succ_of_le hj), Nat.add_zero]
  have hrow : r = row := by rw [← hdiv r c hc, h, hdiv row column hcolumn]
  subst hrow
  exact ⟨rfl, Nat.add_left_cancel h⟩

/-- Every hump can be cut out of the name. -/
theorem exists_slice? {name : Bytes} {j : Nat} (hj : j < (wordStarts name).length) :
    ∃ start hump, (wordStarts name)[j]? = some start
      ∧ slice? name start ((wordStarts name)[j + 1]?.getD name.length) = some hump
      ∧ (humpsAt name (wordStarts name))[j]? = some hump := by
  have hstart := List.getElem?_eq_getElem hj
  refine ⟨_, _, hstart, if_pos ?_, ?_⟩
  · have hlt := lt_length_of_mem_wordStarts (List.getElem_mem hj)
    by_cases hnext : j + 1 < (wordStarts name).length
    · have hbefore := List.pairwise_iff_getElem.1 (pairwise_wordStarts name) j (j + 1) hj hnext
        (Nat.lt_succ_self j)
      have hnext' := lt_length_of_mem_wordStarts (List.getElem_mem hnext)
      rw [List.getElem?_eq_getElem hnext, Option.getD_some]
      omega
    · rw [List.getElem?_eq_none (by omega), Option.getD_none]
      omega
  · rw [getElem?_humpsAt, hstart]
    rfl

end WorthTable

end SymbolSearch.Pattern
