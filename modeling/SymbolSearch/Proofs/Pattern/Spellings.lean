import Mathlib.Data.List.Induction
import Mathlib.Order.Bounds.Basic
import SymbolSearch.Pattern.Humps

/-!
# Spellings

A pattern is spelled by humps when it falls into beginnings of them, from left to right. The rows
that are computed for a pattern hold the greatest worth of a spelling of each of its endings from
each hump on, though a row only looks at the rows behind it.
-/

namespace SymbolSearch.Pattern

/-! ### The greatest of a set -/

/-- The greatest of the values, or nothing if there are no values. -/
def IsBest (values : Set Int) : Option Int → Prop
  | none => values = ∅
  | some value => IsGreatest values value

variable {values others : Set Int}

theorem IsBest.unique {a b : Option Int} (ha : IsBest values a) (hb : IsBest values b) : a = b := by
  cases a with
  | none =>
    cases b with
    | none => rfl
    | some b => exact absurd hb.1 (ha ▸ Set.notMem_empty b)
  | some a =>
    cases b with
    | none => exact absurd ha.1 (hb ▸ Set.notMem_empty a)
    | some b => exact congrArg some (IsGreatest.unique ha hb)

theorem IsBest.best {a b : Option Int} (ha : IsBest values a) (hb : IsBest others b) :
    IsBest (values ∪ others) (best a b) := by
  cases a with
  | none =>
    have hempty : values = ∅ := ha
    rw [hempty, Set.empty_union]
    exact hb
  | some a =>
    cases b with
    | none =>
      have hempty : others = ∅ := hb
      rw [hempty, Set.union_empty]
      exact ha
    | some b => exact IsGreatest.union ha hb

/-- Whatever keeps the order keeps the greatest. -/
theorem IsBest.map {a : Option Int} {f : Int → Int} (ha : IsBest values a)
    (hf : ∀ v w, v ≤ w → f v ≤ f w) : IsBest {v | ∃ w ∈ values, v = f w} (a.map f) := by
  cases a with
  | none =>
    have hempty : values = ∅ := ha
    change {v | _} = ∅
    simp [hempty]
  | some a =>
    refine ⟨⟨a, ha.1, rfl⟩, ?_⟩
    rintro v ⟨w, hw, rfl⟩
    exact hf w a (ha.2 hw)

theorem isBest_bestOf {sets : Nat → Set Int} {found : List (Option Int)}
    (h : ∀ i (hi : i < found.length), IsBest (sets i) found[i]) :
    IsBest {v | ∃ i < found.length, v ∈ sets i} (bestOf found) := by
  induction found using List.reverseRecOn with
  | nil =>
    change {v | _} = ∅
    simp
  | append_singleton found last ih =>
    have hlast : IsBest (sets found.length) last := by
      simpa using h found.length (by simp)
    have hfound := ih fun i hi => by
      have hi' := h i (by simp; omega)
      rwa [List.getElem_append_left hi] at hi'
    have hunion : {v | ∃ i < (found ++ [last]).length, v ∈ sets i}
        = {v | ∃ i < found.length, v ∈ sets i} ∪ sets found.length := by
      ext v
      simp only [List.length_append, List.length_singleton, Nat.lt_succ_iff_lt_or_eq, or_and_right,
        exists_or, exists_eq_left, Set.mem_union, Set.mem_ofPred_eq]
    rw [hunion, bestOf, List.foldl_append]
    exact hfound.best hlast

theorem isBest_bestOf_zipIdx {α : Type} {sets : Nat → Set Int} {items : List α}
    {f : α × Nat → Option Int} (h : ∀ i (hi : i < items.length), IsBest (sets i) (f (items[i], i))) :
    IsBest {v | ∃ i < items.length, v ∈ sets i} (bestOf (items.zipIdx.map f)) := by
  have hbest := @isBest_bestOf sets (items.zipIdx.map f) fun i hi => by
    simpa using h i (by simpa using hi)
  simpa using hbest

/-! ### Spellings -/

theorem lt_commonPrefix_iff {k : Nat} {hump pattern : Bytes} : k < commonPrefix hump pattern
    ↔ k < pattern.length ∧ pattern.take (k + 1) <+: hump := by
  induction pattern generalizing k hump with
  | nil => cases hump <;> simp [commonPrefix]
  | cons b rest ih =>
    cases hump with
    | nil => simp [commonPrefix]
    | cons a hump =>
      by_cases hab : a = b
      · subst hab
        cases k with
        | zero => simp [commonPrefix]
        | succ k => simp [commonPrefix, ih, List.cons_prefix_cons]
      · simp [commonPrefix, hab, List.cons_prefix_cons, Ne.symm hab]

theorem commonPrefix_le {hump pattern : Bytes} : commonPrefix hump pattern ≤ pattern.length := by
  by_contra h
  exact absurd (lt_commonPrefix_iff.1 (Nat.lt_of_not_le h)).1 (Nat.lt_irrefl _)

/-- The pattern is spelled by humps from `first` on with this worth, where every hump that is skipped
at the beginning costs `skip`, and skipping none earns `bonus`. After the first chunk humps are
skipped at the cost of `skippedHump`. -/
inductive Spells (humps : List Bytes) : Int → Int → Nat → Bytes → Int → Prop
  | done {skip bonus : Int} {first : Nat} : Spells humps skip bonus first [] 0
  | take {skip bonus : Int} {first skipped k : Nat} {pattern hump : Bytes} {worth : Int}
    (hhump : humps[first + skipped]? = some hump)
    (hk : k < commonPrefix (foldBytes hump) (foldBytes pattern))
    (later : Spells humps skippedHump neighbourBonus (first + skipped + 1) (pattern.drop (k + 1))
      worth) :
    Spells humps skip bonus first pattern
      (worth + perCharacter * (k + 1) - skip * skipped + if skipped = 0 then bonus else 0)

variable {humps : List Bytes} {pattern : Bytes} {skip bonus worth : Int} {first : Nat}

/-- What comes of taking a chunk from the hump `j`, and then from later ones. -/
def Gained (humps : List Bytes) (pattern : Bytes) (j : Nat) : Set Int :=
  {v | ∃ hump k worth, humps[j]? = some hump
    ∧ k < commonPrefix (foldBytes hump) (foldBytes pattern)
    ∧ Spells humps skippedHump neighbourBonus (j + 1) (pattern.drop (k + 1)) worth
    ∧ v = worth + perCharacter * (k + 1)}

theorem spells_nil_iff : Spells humps skip bonus first [] worth ↔ worth = 0 := by
  constructor
  · intro h
    generalize hnil : ([] : Bytes) = rest at h
    cases h with
    | done => rfl
    | take hhump hk later =>
      subst hnil
      have := (lt_commonPrefix_iff.1 hk).1
      simp [foldBytes] at this
  · rintro rfl
    exact .done

theorem spells_iff_gained (hpattern : pattern ≠ []) : Spells humps skip bonus first pattern worth
    ↔ ∃ skipped < humps.length - first, ∃ gain ∈ Gained humps pattern (first + skipped),
      worth = gain - skip * skipped + if skipped = 0 then bonus else 0 := by
  constructor
  · intro h
    cases h with
    | done => exact absurd rfl hpattern
    | @take _ _ _ skipped k _ hump worth hhump hk later =>
      have hlt := (List.getElem?_eq_some_iff.1 hhump).1
      exact ⟨skipped, by omega, _, ⟨hump, k, worth, hhump, hk, later, rfl⟩, rfl⟩
  · rintro ⟨skipped, -, _, ⟨hump, k, worth, hhump, hk, later, rfl⟩, rfl⟩
    exact .take hhump hk later

/-- A row holds the greatest worth of an ending of the pattern, from each hump on. -/
def IsRow (humps : List Bytes) (rest : Bytes) (row : List (Option Int)) : Prop :=
  ∀ first ≤ humps.length,
    IsBest {v | Spells humps skippedHump neighbourBonus first rest v} (row[first]?.getD none)

/-! ### The rows -/

theorem getElem?_chooseEach {gains : List (Option Int)} (h : first ≤ gains.length) :
    (chooseEach skip bonus gains)[first]? = some (choose skip bonus (gains.drop first)) := by
  induction gains generalizing first with
  | nil =>
    obtain rfl : first = 0 := by simpa using h
    rfl
  | cons gain gains ih =>
    cases first with
    | zero => rfl
    | succ first => simpa [chooseEach] using ih (by simpa using h)

theorem isBest_choose {sets : Nat → Set Int} {gains : List (Option Int)}
    (h : ∀ i (hi : i < gains.length), IsBest (sets i) gains[i]) :
    IsBest {v | ∃ skipped < gains.length, ∃ gain ∈ sets skipped,
        v = gain - skip * skipped + if skipped = 0 then bonus else 0}
      (choose skip bonus gains) := by
  apply isBest_bestOf_zipIdx
  intro skipped hskipped
  apply (h skipped hskipped).map
  intro a b hab
  omega

theorem isBest_takeFrom {sets : Nat → Set Int} {later : List (Option Int)} {most : Nat}
    (hmost : most ≤ later.length) (h : ∀ k (hk : k < later.length), IsBest (sets k) later[k]) :
    IsBest {v | ∃ k < most, ∃ worth ∈ sets k, v = worth + perCharacter * (k + 1)}
      (takeFrom later most) := by
  have hlength : most = (later.take most).length := by simp [hmost]
  conv in _ < most => rw [hlength]
  apply isBest_bestOf_zipIdx
  intro k hk
  rw [List.getElem_take]
  apply (h k (by omega)).map
  intro a b hab
  omega

theorem isBest_gains {later : List (List (Option Int))} (hlength : later.length = pattern.length)
    (hlater : ∀ k (hk : k < later.length), IsRow humps (pattern.drop (k + 1)) later[k]) (j : Nat)
    (hj : j < (gains (humps.map foldBytes) (foldBytes pattern) later).length) :
    IsBest (Gained humps pattern j) (gains (humps.map foldBytes) (foldBytes pattern) later)[j] := by
  have hhump : j < humps.length := by simpa [gains] using hj
  have hgained : Gained humps pattern j
      = {v | ∃ k < commonPrefix (foldBytes humps[j]) (foldBytes pattern),
          ∃ worth ∈ {w | Spells humps skippedHump neighbourBonus (j + 1) (pattern.drop (k + 1)) w},
            v = worth + perCharacter * (k + 1)} := by
    ext v
    simp [Gained, List.getElem?_eq_getElem hhump]
  rw [hgained]
  simp only [gains, List.getElem_map, List.getElem_zipIdx, Nat.zero_add]
  apply isBest_takeFrom
  · rw [List.length_map, hlength, ← List.length_map fold]
    exact commonPrefix_le
  · intro k hk
    rw [List.getElem_map]
    exact hlater k (by simpa using hk) (j + 1) hhump

theorem length_gains {later : List (List (Option Int))} :
    (gains (humps.map foldBytes) (foldBytes pattern) later).length = humps.length := by
  simp [gains]

/-- The best choice is the greatest worth of the pattern when the rows behind it are right. -/
theorem isBest_choose_gains {later : List (List (Option Int))} (hpattern : pattern ≠ [])
    (hlength : later.length = pattern.length)
    (hlater : ∀ k (hk : k < later.length), IsRow humps (pattern.drop (k + 1)) later[k]) :
    IsBest {v | Spells humps skip bonus first pattern v}
      (choose skip bonus ((gains (humps.map foldBytes) (foldBytes pattern) later).drop first)) := by
  have hspells : {v | Spells humps skip bonus first pattern v}
      = {v | ∃ skipped < ((gains (humps.map foldBytes) (foldBytes pattern) later).drop first).length,
          ∃ gain ∈ Gained humps pattern (first + skipped),
            v = gain - skip * skipped + if skipped = 0 then bonus else 0} := by
    ext v
    simp only [Set.mem_ofPred_eq, spells_iff_gained hpattern, List.length_drop, length_gains]
  rw [hspells]
  apply isBest_choose
  intro skipped hskipped
  rw [List.getElem_drop]
  exact isBest_gains hlength hlater (first + skipped) _

theorem worthRows_spec (humps : List Bytes) (pattern : Bytes) :
    (worthRows (humps.map foldBytes) (foldBytes pattern)).length = pattern.length + 1
    ∧ ∀ k (hk : k < (worthRows (humps.map foldBytes) (foldBytes pattern)).length),
      IsRow humps (pattern.drop k) (worthRows (humps.map foldBytes) (foldBytes pattern))[k] := by
  induction pattern with
  | nil =>
    refine ⟨rfl, fun k hk first hfirst => ?_⟩
    obtain rfl : k = 0 := by simpa [worthRows, foldBytes] using hk
    have hzero : {v | Spells humps skippedHump neighbourBonus first [] v} = {0} := by
      ext v
      exact spells_nil_iff
    have hentry : ((List.replicate ((humps.map foldBytes).length + 1) (some (0 : Int)))[first]?).getD none
        = some 0 := by
      simp [Nat.lt_succ_of_le hfirst]
    change IsBest _ ((List.replicate _ _)[first]?.getD none)
    rw [hentry, List.drop_nil, hzero]
    exact isGreatest_singleton
  | cons b rest ih =>
    obtain ⟨hlength, hrows⟩ := ih
    refine ⟨by simpa [worthRows, foldBytes] using hlength, fun k hk => ?_⟩
    cases k with
    | succ k => exact hrows k (by simpa [worthRows, foldBytes] using hk)
    | zero =>
      intro first hfirst
      change IsBest _ ((chooseEach _ _ (gains _ (foldBytes (b :: rest)) _))[first]?.getD none)
      rw [getElem?_chooseEach (by rw [length_gains]; exact hfirst)]
      exact isBest_choose_gains (List.cons_ne_nil b rest) hlength hrows

/-- The worth of an abbreviation is the greatest worth of the pattern. -/
theorem isBest_abbreviation (humps : List Bytes) (pattern : Bytes) :
    IsBest {v | Spells humps leadingHump 0 0 pattern v}
      (abbreviation (humps.map foldBytes) (foldBytes pattern)) := by
  cases pattern with
  | nil =>
    have hzero : {v | Spells humps leadingHump 0 0 [] v} = {0} := by
      ext v
      exact spells_nil_iff
    rw [hzero]
    exact isGreatest_singleton
  | cons b rest =>
    obtain ⟨hlength, hrows⟩ := worthRows_spec humps rest
    have hbest := @isBest_choose_gains humps (b :: rest) leadingHump 0 0 _ (List.cons_ne_nil b rest)
      hlength hrows
    rwa [List.drop_zero] at hbest

end SymbolSearch.Pattern
