import SymbolSearch.Proofs.Pattern.Alignments
import SymbolSearch.Proofs.Pattern.WorthTable

/-!
# The greatest value of an alignment

Filling the table of worths in, from its end, makes every entry the greatest worth of its ending of
the pattern. What is found for the whole pattern is the greatest value of an alignment.
-/

namespace SymbolSearch.Pattern

namespace WorthTable

/-! ### Entries -/

variable {pattern name : Bytes} {starts : List Nat}

/-- What an entry of the table is the greatest of. -/
def worths (humps : List Bytes) (pattern : Bytes) (row first : Nat) : Set Int :=
  {v | Spells humps (skipAt row) (bonusAt row) first (pattern.drop row) v}

theorem worths_of_pos (humps : List Bytes) {row : Nat} (hrow : 0 < row) (first : Nat) :
    worths humps pattern row first
      = {v | Spells humps skippedHump neighbourBonus first (pattern.drop row) v} := by
  rw [worths, skipAt, bonusAt, if_neg (by omega), if_neg (by omega)]

/-- The table holds the greatest worths in all rows behind `row`, in its columns from `column` on,
and in the last column, from which nothing can be spelled. -/
structure Filled (humps : List Bytes) (pattern : Bytes) (row column : Nat) (table : Array Int) :
    Prop where
  size : table.size = (pattern.length + 1) * (humps.length + 1)
  entry : ∀ r c, r ≤ pattern.length → c ≤ humps.length →
    row < r ∨ r = row ∧ column ≤ c ∨ c = humps.length →
    ∃ n, table[position humps.length r c]? = some n ∧ IsBest (worths humps pattern r c) (worth? n)

/-- What comes of taking a chunk from hump `j` when the humps from `first` on are skipped. -/
def chosen (humps : List Bytes) (pattern : Bytes) (row first j : Nat) : Set Int :=
  {v | ∃ gain ∈ Gained humps (pattern.drop row) j,
    v = gain - skipAt row * (j - first : Nat) + if j - first = 0 then bonusAt row else 0}

/-- What comes of it when the chunk has `count` characters. -/
def chosenOf (humps : List Bytes) (pattern : Bytes) (row first j count : Nat) : Set Int :=
  {v | ∃ worth ∈ worths humps pattern (row + count) (j + 1),
    v = worth + perCharacter * count - skipAt row * (j - first : Nat)
      + if j - first = 0 then bonusAt row else 0}

theorem chosen_eq {humps : List Bytes} {hump : Bytes} {row first j : Nat}
    (hhump : humps[j]? = some hump) : chosen humps pattern row first j
      = {v | ∃ count ∈ List.range' 1
            (commonPrefix (foldBytes hump) (foldBytes (pattern.drop row))),
          v ∈ chosenOf humps pattern row first j count} := by
  ext v
  constructor
  · rintro ⟨_, ⟨hump', k, worth, hhump', hk, hspells, rfl⟩, rfl⟩
    obtain rfl := Option.some.inj (hhump'.symm.trans hhump)
    refine ⟨k + 1, List.mem_range'_1.2 (by omega), worth, ?_, by simp⟩
    rw [worths_of_pos humps (by omega)]
    rwa [List.drop_drop] at hspells
  · rintro ⟨count, hcount, worth, hworth, rfl⟩
    rw [List.mem_range'_1] at hcount
    rw [worths_of_pos humps (by omega)] at hworth
    obtain ⟨k, rfl⟩ : ∃ k, count = k + 1 := ⟨count - 1, by omega⟩
    refine ⟨_, ⟨hump, k, worth, hhump, by omega, ?_, rfl⟩, by simp⟩
    rw [List.drop_drop]
    exact hworth

/-- The choices among all humps make up an entry. -/
theorem worths_eq_chosen {humps : List Bytes} {row first : Nat} (hrow : row < pattern.length) :
    worths humps pattern row first
      = {v | ∃ j ∈ List.range' first (humps.length - first), v ∈ chosen humps pattern row first j} := by
  have hrest : pattern.drop row ≠ [] := by simpa using hrow
  ext v
  rw [worths, Set.mem_ofPred_eq, spells_iff_gained hrest]
  constructor
  · rintro ⟨skipped, hskipped, gain, hgain, rfl⟩
    exact ⟨first + skipped, List.mem_range'_1.2 (by omega), gain, hgain, by simp⟩
  · rintro ⟨j, hj, gain, hgain, rfl⟩
    rw [List.mem_range'_1] at hj
    refine ⟨j - first, by omega, gain, ?_, rfl⟩
    rwa [Nat.add_sub_cancel' hj.1]

section

variable {humps : List Bytes} {table : Array Int} {row column : Nat}
variable (hpattern : pattern.length < Bytes.limit 3) (hfew : humps.length < Bytes.limit 3)

include hpattern hfew

/-- A chunk that is tried adds what comes of it to the choices. -/
theorem exists_tryChunk (hstarts : starts.length = humps.length)
    (hfilled : Filled humps pattern row column table) {first j count : Nat} (hfirst : first ≤ j)
    (hj : j < humps.length) (hpos : 0 < count) (hcount : row + count ≤ pattern.length)
    (values : Set Int) (best : Int) (hbest : IsBest values (worth? best)) :
    ∃ next, tryChunk starts table row first j best count = some next
      ∧ IsBest (values ∪ chosenOf humps pattern row first j count) (worth? next) := by
  obtain ⟨entry, hentry, hbestLater⟩ :=
    hfilled.entry (row + count) (j + 1) hcount hj (.inl (by omega))
  rw [tryChunk, hstarts, hentry, Option.bind_eq_bind, Option.bind_some]
  cases hlater : worth? entry with
  | none =>
    rw [hlater] at hbestLater
    have hempty : worths humps pattern (row + count) (j + 1) = ∅ := hbestLater
    exact ⟨best, rfl, by simpa [chosenOf, hempty] using hbest⟩
  | some later =>
    rw [hlater] at hbestLater
    have hgreatest : IsGreatest (worths humps pattern (row + count) (j + 1)) later := hbestLater
    obtain ⟨hlow, hhigh⟩ := bounds_of_spells hgreatest.1 (skipAt_bounds _) (bonusAt_bounds _) hj
    rw [List.length_drop] at hhigh
    obtain ⟨worth, hworth, rfl, hreached⟩ :=
      @chunkWorth?_eq_some humps.length pattern.length row (j - first) count later hfew hpattern
        (by omega) (by omega) (by omega) (by omega)
    refine ⟨_, congrArg (Option.map (max best)) hworth, ?_⟩
    rw [worth?_max hreached]
    apply hbest.best
    apply IsBest.map (a := some later) hgreatest
    intro a b hab
    omega

/-- A hump that is tried adds what comes of all its chunks. -/
theorem exists_tryHump (hhumps : humps = humpsAt name (wordStarts name))
    (hfilled : Filled humps pattern row column table) (hrow : row < pattern.length) {first j : Nat}
    (hfirst : first ≤ j) (hj : j < humps.length)
    (values : Set Int) (best : Int) (hbest : IsBest values (worth? best)) :
    ∃ next, tryHump pattern name (wordStarts name) table row first best j = some next
      ∧ IsBest (values ∪ chosen humps pattern row first j) (worth? next) := by
  have hlength : (wordStarts name).length = humps.length := by rw [hhumps, length_humpsAt]
  obtain ⟨start, hump, hstart, hslice, hhump⟩ := @exists_slice? name j (hlength ▸ hj)
  rw [← hhumps] at hhump
  have hrest : slice? (foldBytes pattern) row pattern.length
      = some (foldBytes (pattern.drop row)) := by
    have hall : (foldBytes pattern).length = pattern.length := List.length_map ..
    rw [slice?, if_pos ⟨hrow.le, hall.ge⟩, List.take_of_length_le hall.le, foldBytes, foldBytes,
      List.map_drop]
  simp only [tryHump, hstart, hslice, hrest, Option.bind_eq_bind, Option.bind_some]
  have hmost : commonPrefix (foldBytes hump) (foldBytes (pattern.drop row))
      ≤ pattern.length - row := by
    rw [← List.length_drop, ← @List.length_map _ _ (pattern.drop row) fold]
    exact commonPrefix_le
  rw [chosen_eq hhump]
  apply exists_foldlM_best _ hbest
  intro count hcount values best hbest
  rw [List.mem_range'_1] at hcount
  exact exists_tryChunk hpattern hfew hlength hfilled hfirst hj (by omega) (by omega) values best
    hbest

/-- An entry that is filled in is the greatest worth of its ending, and no other entry changes. -/
theorem exists_enter (hhumps : humps = humpsAt name (wordStarts name))
    (hfilled : Filled humps pattern row (column + 1) table) (hrow : row < pattern.length)
    (hcolumn : column < humps.length) :
    ∃ next, enter pattern name (wordStarts name) row table column = some next
      ∧ Filled humps pattern row column next := by
  have hlength : (wordStarts name).length = humps.length := by rw [hhumps, length_humpsAt]
  have hstep : ∀ j ∈ List.range' column (humps.length - column), ∀ values best,
      IsBest values (worth? best) →
      ∃ next, tryHump pattern name (wordStarts name) table row column best j = some next
        ∧ IsBest (values ∪ chosen humps pattern row column j) (worth? next) := by
    intro j hj values best hbest
    rw [List.mem_range'_1] at hj
    exact exists_tryHump hpattern hfew hhumps hfilled hrow hj.1 (by omega) values best hbest
  have hnone : IsBest ∅ (worth? unspelled) := rfl
  obtain ⟨best, hbest, hworths⟩ := exists_foldlM_best hstep hnone
  rw [Set.empty_union, ← worths_eq_chosen hrow] at hworths
  have hposition := position_lt hrow.le hcolumn.le
  rw [← hfilled.size] at hposition
  refine ⟨table.setIfInBounds (position humps.length row column) best, ?_, ?_⟩
  · simp only [enter, hlength, hbest, Option.bind_eq_bind, Option.bind_some]
    exact if_pos hposition
  · refine ⟨by rw [Array.size_setIfInBounds, hfilled.size], fun r c hr hc hsettled => ?_⟩
    by_cases hhere : r = row ∧ c = column
    · obtain ⟨rfl, rfl⟩ := hhere
      exact ⟨best, by simp [hposition], hworths⟩
    · have hne : position humps.length row column ≠ position humps.length r c := fun heq =>
        hhere (position_injective hc hcolumn.le heq.symm)
      rw [Array.getElem?_setIfInBounds_ne hne]
      exact hfilled.entry r c hr hc (by omega)

theorem exists_enterRow (hhumps : humps = humpsAt name (wordStarts name))
    (hfilled : Filled humps pattern (row + 1) 0 table) (hrow : row < pattern.length) :
    ∃ next, enterRow pattern name (wordStarts name) table row = some next
      ∧ Filled humps pattern row 0 next := by
  have hlength : (wordStarts name).length = humps.length := by rw [hhumps, length_humpsAt]
  have hlast : Filled humps pattern row humps.length table :=
    ⟨hfilled.size, fun r c hr hc hsettled => hfilled.entry r c hr hc (by omega)⟩
  rw [enterRow, hlength]
  exact exists_foldlM_down (P := fun column => Filled humps pattern row column)
    (fun column hcolumn table hfilled =>
      exists_enter hpattern hfew hhumps hfilled hrow hcolumn) hlast

end

variable {humps : List Bytes} {row : Nat}

theorem isBest_empty (humps : List Bytes) (column : Nat) :
    IsBest (worths humps pattern pattern.length column) (worth? 0) := by
  have hzero : worths humps pattern pattern.length column = {0} := by
    ext v
    rw [worths, List.drop_length]
    exact spells_nil_iff
  rw [hzero]
  exact isGreatest_singleton

theorem isBest_last (humps : List Bytes) (hrow : row < pattern.length) :
    IsBest (worths humps pattern row humps.length) (worth? unspelled) := by
  have hempty : worths humps pattern row humps.length = ∅ := by
    rw [worths_eq_chosen hrow, Nat.sub_self]
    simp
  exact hempty

/-- The table in the beginning, when the first columns of its last row are done. -/
structure Begun (humps : Nat) (pattern : Bytes) (column : Nat) (table : Array Int) : Prop where
  size : table.size = (pattern.length + 1) * (humps + 1)
  zero : ∀ c < column, table[position humps pattern.length c]? = some 0
  last : ∀ r < pattern.length, table[position humps r humps]? = some unspelled

theorem exists_begun {humps column : Nat} {table : Array Int}
    (hbegun : Begun humps pattern column table) (hcolumn : column < humps + 1) :
    ∃ next, set? table (position humps pattern.length column) 0 = some next
      ∧ Begun humps pattern (column + 1) next := by
  have hposition := position_lt (Nat.le_refl pattern.length) (Nat.le_of_lt_succ hcolumn)
  rw [← hbegun.size] at hposition
  refine ⟨_, if_pos hposition, ?_, fun c hc => ?_, fun r hr => ?_⟩
  · rw [Array.size_setIfInBounds, hbegun.size]
  · by_cases heq : c = column
    · simp [heq, hposition]
    · rw [Array.getElem?_setIfInBounds_ne fun h =>
        heq (position_injective (by omega) (by omega) h).2.symm]
      exact hbegun.zero c (by omega)
  · rw [Array.getElem?_setIfInBounds_ne fun h =>
      hr.ne (position_injective (by omega) (by omega) h).1.symm]
    exact hbegun.last r hr

/-- In the beginning the row of the empty ending is right, and so is the last column. -/
theorem exists_start (hlength : starts.length = humps.length) :
    ∃ table, start pattern starts = some table ∧ Filled humps pattern pattern.length 0 table := by
  have hempty : Begun humps.length pattern 0
      (Array.replicate ((pattern.length + 1) * (humps.length + 1)) unspelled) := by
    refine ⟨Array.size_replicate, fun c hc => absurd hc (Nat.not_lt_zero c), fun r hr => ?_⟩
    simp [position_lt hr.le (Nat.le_refl humps.length)]
  obtain ⟨table, htable, hbegun⟩ := exists_foldlM_up (P := Begun humps.length pattern)
    (fun column hcolumn table hbegun => exists_begun hbegun hcolumn) hempty
  refine ⟨table, by rw [start, hlength]; exact htable, hbegun.size, fun r c hr hc hsettled => ?_⟩
  by_cases hrow : r = pattern.length
  · subst hrow
    exact ⟨0, hbegun.zero c (by omega), isBest_empty humps c⟩
  · obtain rfl : c = humps.length := by omega
    exact ⟨unspelled, hbegun.last r (by omega), isBest_last humps (by omega)⟩

theorem exists_fill (hpattern : pattern.length < Bytes.limit 3)
    (hname : name.length < Bytes.limit 3) :
    ∃ table, fill pattern name (wordStarts name) = some table
      ∧ Filled (humpsAt name (wordStarts name)) pattern 0 0 table := by
  have hlength := length_humpsAt name (wordStarts name)
  have hhumps : (humpsAt name (wordStarts name)).length < Bytes.limit 3 := by
    have := length_wordStarts_le name
    omega
  obtain ⟨table, htable, hfilled⟩ := @exists_start pattern _ _ hlength.symm
  obtain ⟨filled, hfill, hall⟩ := exists_foldlM_down
    (P := fun row => Filled (humpsAt name (wordStarts name)) pattern row 0)
    (fun row hrow table hfilled =>
      exists_enterRow hpattern hhumps rfl hfilled hrow) hfilled
  refine ⟨filled, ?_, hall⟩
  rw [fill, htable]
  exact hfill

/-- The table leads to the score without any failed check. -/
theorem score?_eq_some (hpattern : pattern.length < Bytes.limit 3)
    (hname : name.length < Bytes.limit 3) : score? pattern name (wordStarts name)
      = some (camelCase (foldBytes pattern) (foldBytes name) (wordStarts name)) := by
  rw [score?, camelCase]
  by_cases hwords : (wordStarts name).length < 2
  · rw [if_pos hwords, if_pos hwords]
    rfl
  · obtain ⟨table, htable, hfilled⟩ := exists_fill hpattern hname
    obtain ⟨entry, hentry, hbest⟩ := hfilled.entry 0 0 (Nat.zero_le _) (Nat.zero_le _) (by omega)
    rw [position_zero] at hentry
    have habbreviation := isBest_abbreviation (humpsAt name (wordStarts name)) pattern
    rw [← humpsAt_foldBytes] at habbreviation
    have hworth := hbest.unique habbreviation
    rw [if_neg hwords, if_neg hwords, ← hworth]
    simp only [htable, hentry, Option.bind_eq_bind, Option.bind_some]
    cases hfound : worth? entry with
    | none => rfl
    | some worth =>
      rw [hfound] at hbest
      have hspells : worth ∈ worths (humpsAt name (wordStarts name)) pattern 0 0 := hbest.1
      obtain ⟨hlow, hhigh⟩ :=
        bounds_of_spells hspells (skipAt_bounds 0) (bonusAt_bounds 0) (Nat.zero_le _)
      have hlimit : Bytes.limit 3 = 16777216 := rfl
      have hhumps := length_wordStarts_le name
      rw [length_humpsAt] at hlow
      rw [List.drop_zero] at hhigh
      simp only
      rw [int32?_eq_some (by omega), Option.bind_some, int32?_eq_some (by omega)]
      simp [foldBytes]

end WorthTable

/-- A name of at least two words has a score if some alignment writes the pattern, and then it is the
greatest value of an alignment less the length of the name. The table of worths leads to it without
a failed check. -/
theorem camelCase_optimal (pattern name : Bytes) (hpattern : pattern.length < Bytes.limit 3)
    (hname : name.length < Bytes.limit 3) (hwords : 2 ≤ (wordStarts name).length) :
    let score := camelCase (foldBytes pattern) (foldBytes name) (wordStarts name)
    (score = none ↔ IsEmpty (Alignment name pattern))
    ∧ (∀ value : Int, score = some (value - name.length)
        ↔ IsGreatest (Set.range (@Alignment.value name pattern)) value)
    ∧ WorthTable.score? pattern name (wordStarts name) = some score := by
  intro score
  have hbest := isBest_abbreviation (humpsAt name (wordStarts name)) pattern
  rw [← range_value, ← humpsAt_foldBytes] at hbest
  have hscore : score = (abbreviation (humpsAt (foldBytes name) (wordStarts name))
      (foldBytes pattern)).map (· - (name.length : Int)) := by
    have hlength : (foldBytes name).length = name.length := List.length_map ..
    change camelCase _ _ _ = _
    rw [camelCase, if_neg (by omega), hlength]
  refine ⟨?_, fun value => ?_, WorthTable.score?_eq_some hpattern hname⟩
  · rw [hscore, Option.map_eq_none_iff]
    constructor
    · intro hnone
      rw [hnone] at hbest
      exact Set.range_eq_empty_iff.1 hbest
    · intro hempty
      exact hbest.unique (b := none) (Set.range_eq_empty_iff.2 hempty)
  · constructor
    · intro hvalue
      obtain ⟨best, habbreviation, hsub⟩ := Option.map_eq_some_iff.1 (hscore.symm.trans hvalue)
      obtain rfl : best = value := by omega
      rw [habbreviation] at hbest
      exact hbest
    · intro hgreatest
      rw [hscore, hbest.unique (b := some value) hgreatest]
      rfl

/-- Neighbouring humps are worth more than a hump that comes later: the value 25 is greatest. -/
theorem camelCase_optimal_of_neighbours :
    let pattern := Bytes.ofString "fb"
    let name := Bytes.ofString "FooBarBaz"
    pattern.length < Bytes.limit 3 ∧ name.length < Bytes.limit 3 ∧ 2 ≤ (wordStarts name).length
      ∧ camelCase (foldBytes pattern) (foldBytes name) (wordStarts name) = some 16
      ∧ IsGreatest (Set.range (@Alignment.value name pattern)) 25 := by
  intro pattern name
  have hpattern : pattern.length < Bytes.limit 3 := by decide +kernel
  have hname : name.length < Bytes.limit 3 := by decide +kernel
  have hwords : 2 ≤ (wordStarts name).length := by decide +kernel
  have hscore : camelCase (foldBytes pattern) (foldBytes name) (wordStarts name) = some 16 := by
    decide +kernel
  have hlength : (name.length : Int) = 9 := by decide +kernel
  obtain ⟨-, hvalue, -⟩ := camelCase_optimal pattern name hpattern hname hwords
  refine ⟨hpattern, hname, hwords, hscore, (hvalue 25).1 ?_⟩
  rw [hscore, hlength]
  rfl

end SymbolSearch.Pattern
