import Mathlib.Order.Bounds.Basic
import SymbolSearch.Proofs.Pattern.Edits

/-!
# The distance is the least number of edits

The rows of the table are for the beginnings of one text, and the entries of a row for those of the
other, so the characters of a beginning are gone through from its end. An entry is the least number
of edits in order. Of the pairs of characters that may cross with the last ones, only the nearest
have to be looked at, since characters in between are deleted or inserted at the same cost.
-/

namespace SymbolSearch.Pattern

variable {m n e : Nat} {text other as bs : List Char} {a b : Char}

/-- The least number of edits in order. -/
def Costs (e : Nat) (as bs : List Char) : Prop := ∀ m, Within m as bs ↔ e ≤ m

theorem Costs.within (h : Costs e as bs) : Within e as bs := (h e).2 (Nat.le_refl e)

theorem costs_of_within (hwithin : Within e as bs) (hleast : ∀ m, Within m as bs → e ≤ m) :
    Costs e as bs := fun m => ⟨hleast m, hwithin.mono⟩

theorem Costs.isLeast (h : Costs e as bs) : IsLeast {n | Edits n as bs} e := by
  have hleast (n : Nat) (hedits : Edits n as bs) : e ≤ n :=
    (h n).1 (within_iff.2 ⟨n, Nat.le_refl n, hedits⟩)
  obtain ⟨k, hk, hedits⟩ := within_iff.1 h.within
  obtain rfl := Nat.le_antisymm hk (hleast k hedits)
  exact ⟨hedits, fun n => hleast n⟩

theorem costs_nil_left (bs : List Char) : Costs bs.length [] bs := by
  apply costs_of_within
  · have hinserts := Within.nil.inserts bs
    rwa [List.append_nil, Nat.zero_add] at hinserts
  · intro m h
    have := h.length_le
    simpa using this.2

theorem costs_nil_right (as : List Char) : Costs as.length as [] := by
  apply costs_of_within
  · have hdeletes := Within.nil.deletes as
    rwa [List.append_nil, Nat.zero_add] at hdeletes
  · intro m h
    have := h.length_le
    simpa using this.1

/-! ### The last characters -/

/-- The edits that the first characters take part in are of one of five kinds. -/
theorem le_of_within_cons (h : Within m (a :: as) (b :: bs))
    (hinsert : ∀ k, Within k (a :: as) bs → e ≤ k + 1)
    (hdelete : ∀ k, Within k as (b :: bs) → e ≤ k + 1)
    (hboth : ∀ k, Within k as bs → e ≤ k + if a = b then 0 else 1)
    (hcross : ∀ k gone come as' bs', as = gone ++ b :: as' → bs = come ++ a :: bs' →
      Within k as' bs' → e ≤ k + gone.length + come.length + 1) : e ≤ m := by
  generalize hleft : a :: as = left at h
  generalize hright : b :: bs = right at h
  induction h with
  | nil => cases hleft
  | delete a h =>
    cases hleft
    cases hright
    exact hdelete _ h
  | insert b h =>
    cases hleft
    cases hright
    exact hinsert _ h
  | keep c h =>
    cases hleft
    cases hright
    have := hboth _ h
    rwa [if_pos rfl] at this
  | replace a b h =>
    cases hleft
    cases hright
    have := hboth _ h
    split at this <;> omega
  | cross a b gone come h =>
    cases hleft
    cases hright
    exact hcross _ gone come _ _ rfl rfl h
  | weaken _ ih => exact Nat.le_succ_of_le (ih hleft hright)

theorem Within.both (h : Within n as bs) :
    Within (n + if a = b then 0 else 1) (a :: as) (b :: bs) := by
  by_cases heq : a = b
  · rw [heq, if_pos rfl]
    exact h.keep b
  · rw [if_neg heq]
    exact h.replace a b

/-- What is left of the texts may be longer. -/
theorem Within.of_drop {i j : Nat} (h : Within n (as.drop i) (bs.drop j)) :
    Within (n + i + j) as bs := by
  have hlonger := (h.deletes (as.take i)).inserts (bs.take j)
  rw [List.take_append_drop, List.take_append_drop] at hlonger
  apply hlonger.mono
  have hi := List.length_take_le i as
  have hj := List.length_take_le j bs
  omega

/-- The entry without a look at swaps. -/
def plainCost (a b : Char) (left above before : Nat) : Nat :=
  min (min (left + 1) (above + 1)) (before + if a = b then 0 else 1)

section

variable {left above before : Nat} (hleft : Costs left (a :: as) bs)
  (habove : Costs above as (b :: bs)) (hbefore : Costs before as bs)
include hleft habove hbefore

theorem within_plainCost : Within (plainCost a b left above before) (a :: as) (b :: bs) := by
  rw [plainCost]
  rcases Nat.le_total (min (left + 1) (above + 1)) (before + if a = b then 0 else 1) with hle | hle
  · rw [Nat.min_eq_left hle]
    rcases Nat.le_total (left + 1) (above + 1) with hle | hle
    · rw [Nat.min_eq_left hle]
      exact hleft.within.insert b
    · rw [Nat.min_eq_right hle]
      exact habove.within.delete a
  · rw [Nat.min_eq_right hle]
    exact hbefore.within.both

/-- The plain cost may only be undercut by a cross. -/
theorem le_of_le_plainCost (he : e ≤ plainCost a b left above before)
    (hcross : ∀ k gone come as' bs', as = gone ++ b :: as' → bs = come ++ a :: bs' →
      Within k as' bs' → e ≤ k + gone.length + come.length + 1)
    (h : Within m (a :: as) (b :: bs)) : e ≤ m := by
  rw [plainCost] at he
  apply le_of_within_cons h
  · intro k hk
    have := (hleft k).1 hk
    omega
  · intro k hk
    have := (habove k).1 hk
    omega
  · intro k hk
    have := (hbefore k).1 hk
    omega
  · exact hcross

theorem costs_cons_of_no_cross (h : b ∉ as ∨ a ∉ bs) :
    Costs (plainCost a b left above before) (a :: as) (b :: bs) := by
  apply costs_of_within (within_plainCost hleft habove hbefore)
  intro m
  apply le_of_le_plainCost hleft habove hbefore (Nat.le_refl _)
  rintro k gone come as' bs' rfl rfl -
  simp at h

/-- The nearest characters to cross with are the best ones. -/
theorem costs_cons_of_cross {i j crossed : Nat} (hi : as.idxOf? b = some i)
    (hj : bs.idxOf? a = some j) (hcrossed : Costs crossed (as.drop (i + 1)) (bs.drop (j + 1))) :
    Costs (min (plainCost a b left above before) (crossed + i + 1 + j)) (a :: as) (b :: bs) := by
  obtain ⟨hias, hib, hifirst⟩ := List.idxOf?_eq_some_iff.1 hi
  obtain ⟨hjbs, hja, hjfirst⟩ := List.idxOf?_eq_some_iff.1 hj
  apply costs_of_within
  · rcases Nat.le_total (plainCost a b left above before) (crossed + i + 1 + j) with hle | hle
    · rw [Nat.min_eq_left hle]
      exact within_plainCost hleft habove hbefore
    · have has : as.take i ++ b :: as.drop (i + 1) = as := by
        rw [← hib, ← List.drop_eq_getElem_cons, List.take_append_drop]
      have hbs : bs.take j ++ a :: bs.drop (j + 1) = bs := by
        rw [← hja, ← List.drop_eq_getElem_cons, List.take_append_drop]
      have hcross := hcrossed.within.cross a b (as.take i) (bs.take j)
      rw [has, hbs, List.length_take_of_le (Nat.le_of_lt hias),
        List.length_take_of_le (Nat.le_of_lt hjbs)] at hcross
      rw [Nat.min_eq_right hle]
      exact hcross.mono (by omega)
  · intro m
    apply le_of_le_plainCost hleft habove hbefore (Nat.min_le_left _ _)
    intro k gone come as' bs' has hbs hk
    -- What is crossed further on leaves longer texts behind than the nearest cross does.
    have hgone : i ≤ gone.length := by
      by_contra hlt
      exact hifirst gone.length (by omega) (by simp [has])
    have hcome : j ≤ come.length := by
      by_contra hlt
      exact hjfirst come.length (by omega) (by simp [hbs])
    have has' : (as.drop (i + 1)).drop (gone.length - i) = as' := by
      rw [List.drop_drop, show i + 1 + (gone.length - i) = gone.length + 1 by omega, has]
      simp
    have hbs' : (bs.drop (j + 1)).drop (come.length - j) = bs' := by
      rw [List.drop_drop, show j + 1 + (come.length - j) = come.length + 1 by omega, hbs]
      simp
    rw [← has', ← hbs'] at hk
    have := (hcrossed _).1 hk.of_drop
    omega

end

/-! ### Rows -/

/-- The row for `as` is filled up to the first `n` characters of the other text. -/
structure RowTo (other as : List Char) (n : Nat) (row : Array Nat) : Prop where
  size : row.size = n + 1
  entry : ∀ j ≤ n, ∃ e, row[j]? = some e ∧ Costs e as (other.take j).reverse

/-- There is a row for `as` and for each of its endings, the longest first. -/
structure RowsTo (other as : List Char) (rows : List (Array Nat)) : Prop where
  length : rows.length = as.length + 1
  row : ∀ k ≤ as.length, ∃ row, rows[k]? = some row ∧ RowTo other (as.drop k) other.length row

theorem RowTo.push {row : Array Nat} (h : RowTo other as n row)
    (he : Costs e as (other.take (n + 1)).reverse) : RowTo other as (n + 1) (row.push e) := by
  constructor
  · rw [Array.size_push, h.size]
  · intro j hj
    rw [Array.getElem?_push, h.size]
    by_cases hlast : j = n + 1
    · rw [if_pos hlast, hlast]
      exact ⟨e, rfl, he⟩
    · rw [if_neg hlast]
      exact h.entry j (by omega)

theorem RowsTo.cons {rows : List (Array Nat)} {row : Array Nat} (h : RowsTo other as rows)
    (hrow : RowTo other (a :: as) other.length row) : RowsTo other (a :: as) (row :: rows) := by
  constructor
  · rw [List.length_cons, h.length, List.length_cons]
  · intro k hk
    cases k with
    | zero => exact ⟨row, rfl, hrow⟩
    | succ k => exact h.row k (by simpa using hk)

theorem reverse_take_succ (h : other[n]? = some b) :
    (other.take (n + 1)).reverse = b :: (other.take n).reverse := by
  rw [List.take_add_one, h]
  simp

section

variable {rows : List (Array Nat)} {seen : List Char} {left : Nat}

theorem distanceEntry_of_no_cross (h : as.idxOf? b = none ∨ seen.idxOf? a = none) (j : Nat) :
    distanceEntry rows as seen a b j left = plainCost a b left ((rows.headD #[])[j]?.getD 0)
      ((rows.headD #[])[j - 1]?.getD 0) := by
  rcases h with hi | hk
  · simp only [distanceEntry, hi]
    rfl
  · cases hi : as.idxOf? b with
    | none =>
      simp only [distanceEntry, hi]
      rfl
    | some i =>
      simp only [distanceEntry, hi, hk]
      rfl

theorem distanceEntry_of_cross {i k : Nat} {row : Array Nat} (hi : as.idxOf? b = some i)
    (hk : seen.idxOf? a = some k) (hrow : rows[i + 1]? = some row) (j : Nat) :
    distanceEntry rows as seen a b j left = min
      (plainCost a b left ((rows.headD #[])[j]?.getD 0) ((rows.headD #[])[j - 1]?.getD 0))
      ((row[j - 2 - k]?.getD 0) + i + 1 + k) := by
  simp only [distanceEntry, hi, hk, hrow]
  rfl

/-- An entry is right if the entries that it is made from are. -/
theorem costs_distanceEntry (hrows : RowsTo other as rows) (hb : other[n]? = some b)
    (hleft : Costs left (a :: as) (other.take n).reverse) :
    Costs (distanceEntry rows as (other.take n).reverse a b (n + 1) left) (a :: as)
      (other.take (n + 1)).reverse := by
  have hn : n < other.length := (List.getElem?_eq_some_iff.1 hb).1
  have hlength : (other.take n).length = n := List.length_take_of_le (Nat.le_of_lt hn)
  obtain ⟨row, hrow, hentries⟩ := hrows.row 0 (Nat.zero_le _)
  obtain ⟨above, habove, hcostsAbove⟩ := hentries.entry (n + 1) hn
  obtain ⟨before, hbefore, hcostsBefore⟩ := hentries.entry n (Nat.le_of_lt hn)
  have hhead : rows.headD #[] = row := by
    rw [List.headD_eq_head?_getD, List.head?_eq_getElem?, hrow]
    rfl
  rw [reverse_take_succ hb] at hcostsAbove ⊢
  rw [List.drop_zero] at hcostsAbove hcostsBefore
  by_cases hcross : b ∉ as ∨ a ∉ (other.take n).reverse
  · rw [distanceEntry_of_no_cross (hcross.imp List.idxOf?_eq_none_iff.2 List.idxOf?_eq_none_iff.2),
      hhead, habove, Nat.add_sub_cancel, hbefore]
    exact costs_cons_of_no_cross hleft hcostsAbove hcostsBefore hcross
  · rw [not_or, not_not, not_not] at hcross
    obtain ⟨i, hi⟩ := Option.isSome_iff_exists.1 (List.isSome_idxOf?.2 hcross.1)
    obtain ⟨k, hk⟩ := Option.isSome_iff_exists.1 (List.isSome_idxOf?.2 hcross.2)
    have hias : i < as.length := (List.idxOf?_eq_some_iff.1 hi).1
    have hkn : k < n := by
      have := (List.idxOf?_eq_some_iff.1 hk).1
      rwa [List.length_reverse, hlength] at this
    obtain ⟨farther, hfarther, hentries⟩ := hrows.row (i + 1) hias
    obtain ⟨crossed, hcrossed, hcosts⟩ := hentries.entry (n + 1 - 2 - k) (by omega)
    have hdrop : (other.take n).reverse.drop (k + 1) = (other.take (n + 1 - 2 - k)).reverse := by
      rw [List.drop_reverse, hlength, List.take_take, Nat.min_eq_left (by omega),
        show n - (k + 1) = n + 1 - 2 - k by omega]
    rw [← hdrop] at hcosts
    rw [distanceEntry_of_cross hi hk hfarther, hhead, habove, Nat.add_sub_cancel, hbefore, hcrossed]
    exact costs_cons_of_cross hleft hcostsAbove hcostsBefore hi hk hcosts

end

theorem rowTo_distanceRow {rows : List (Array Nat)} (hrows : RowsTo other as rows)
    {seen rest : List Char} {row : Array Nat} (hother : other = seen.reverse ++ rest)
    (hrow : RowTo other (a :: as) seen.length row) :
    RowTo other (a :: as) other.length (distanceRow rows as a seen rest row) := by
  induction rest generalizing seen row with
  | nil =>
    have hlength : other.length = seen.length := by simp [hother]
    rw [distanceRow, hlength]
    exact hrow
  | cons b rest ih =>
    obtain ⟨left, hleft, hcosts⟩ := hrow.entry seen.length (Nat.le_refl _)
    have hback : row.back?.getD 0 = left := by
      rw [Array.back?_eq_getElem?, hrow.size, Nat.add_sub_cancel, hleft]
      rfl
    have hseen : (other.take seen.length).reverse = seen := by
      rw [hother, ← List.length_reverse, List.take_left, List.reverse_reverse]
    have hb : other[seen.length]? = some b := by simp [hother]
    have hentry := costs_distanceEntry hrows hb hcosts
    rw [hseen] at hentry
    rw [distanceRow, hback, hrow.size]
    apply ih
    · rw [hother, List.reverse_cons, List.append_assoc]
      rfl
    · rw [List.length_cons]
      exact hrow.push hentry

theorem rowsTo_distanceRows {rest : List Char} {rows : List (Array Nat)}
    (hrows : RowsTo other as rows) :
    RowsTo other (rest.reverse ++ as) (distanceRows other as rest rows) := by
  induction rest generalizing as rows with
  | nil => exact hrows
  | cons a rest ih =>
    have hfirst : RowTo other (a :: as) 0 #[rows.length] := by
      refine ⟨rfl, fun j hj => ⟨rows.length, ?_, ?_⟩⟩
      · rw [Nat.le_zero.1 hj]
        rfl
      · rw [Nat.le_zero.1 hj, hrows.length]
        exact costs_nil_right (a :: as)
    have hrow : RowTo other (a :: as) other.length
        (distanceRow rows as a [] other #[rows.length]) := rowTo_distanceRow hrows rfl hfirst
    rw [distanceRows, List.reverse_cons, List.append_assoc]
    exact ih (hrows.cons hrow)

/-- The row of distances from the empty text. -/
theorem rowsTo_range (other : List Char) :
    RowsTo other [] [Array.range (other.length + 1)] := by
  refine ⟨rfl, fun k hk => ⟨_, by rw [Nat.le_zero.1 hk]; rfl, Array.size_range, ?_⟩⟩
  intro j hj
  have hcosts := costs_nil_left (other.take j).reverse
  rw [List.length_reverse, List.length_take_of_le hj] at hcosts
  refine ⟨j, ?_, ?_⟩
  · rw [Array.getElem?_range, if_pos (by omega)]
  · rw [List.drop_nil]
    exact hcosts

theorem costs_editDistance (text other : List Char) :
    Costs (editDistance text other) text.reverse other.reverse := by
  have hrows : RowsTo other (text.reverse ++ [])
      (distanceRows other [] text [Array.range (other.length + 1)]) :=
    rowsTo_distanceRows (rowsTo_range other)
  obtain ⟨row, hrow, hentries⟩ := hrows.row 0 (Nat.zero_le _)
  obtain ⟨e, he, hcosts⟩ := hentries.entry other.length (Nat.le_refl _)
  rw [List.drop_zero, List.append_nil, List.take_length] at hcosts
  rw [editDistance, List.headD_eq_head?_getD, List.head?_eq_getElem?, hrow]
  change Costs (row.back?.getD 0) _ _
  rw [Array.back?_eq_getElem?, hentries.size, Nat.add_sub_cancel, he]
  exact hcosts

/-- The entry at the end of the table is the least number of edits from one text to the other. -/
theorem isLeast_editDistance (text other : List Char) :
    IsLeast {n | Edits n text other} (editDistance text other) := by
  have hleast := (costs_editDistance text other).isLeast
  simp only [Edits.reverse_iff] at hleast
  exact hleast

end SymbolSearch.Pattern
