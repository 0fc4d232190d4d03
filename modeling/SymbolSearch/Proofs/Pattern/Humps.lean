import SymbolSearch.Pattern.Humps

/-!
# Word starts and humps

The starts of words stand in order and lie within the name, so that each hump is a piece of the name
between two starts.
-/

namespace SymbolSearch.Pattern

/-! ### Word starts -/

/-- Whether a word starts at the first byte or not, all later starts are those of the rest. -/
theorem wordStartsFrom_cons (i : Nat) (previous? : Option UInt8) (b : UInt8) (rest : Bytes) :
    wordStartsFrom i previous? (b :: rest) = i :: wordStartsFrom (i + 1) (some b) rest
      ∨ wordStartsFrom i previous? (b :: rest) = wordStartsFrom (i + 1) (some b) rest := by
  obtain ⟨starts, hstarts⟩ : ∃ starts : Bool, wordStartsFrom i previous? (b :: rest)
      = if starts then i :: wordStartsFrom (i + 1) (some b) rest
        else wordStartsFrom (i + 1) (some b) rest := ⟨_, rfl⟩
  cases starts with
  | true => exact .inl hstarts
  | false => exact .inr hstarts

theorem mem_wordStartsFrom {i start : Nat} {previous? : Option UInt8} {bytes : Bytes}
    (h : start ∈ wordStartsFrom i previous? bytes) : i ≤ start ∧ start < i + bytes.length := by
  induction bytes generalizing i previous? with
  | nil => simp [wordStartsFrom] at h
  | cons b rest ih =>
    rw [List.length_cons]
    have hlater (hmem : start ∈ wordStartsFrom (i + 1) (some b) rest) :
        i ≤ start ∧ start < i + (rest.length + 1) := by
      have := ih hmem
      omega
    rcases wordStartsFrom_cons i previous? b rest with hcons | hcons
    · rw [hcons] at h
      rcases List.mem_cons.1 h with rfl | hmem
      · omega
      · exact hlater hmem
    · rw [hcons] at h
      exact hlater h

theorem pairwise_wordStartsFrom (i : Nat) (previous? : Option UInt8) (bytes : Bytes) :
    (wordStartsFrom i previous? bytes).Pairwise (· < ·) := by
  induction bytes generalizing i previous? with
  | nil => exact .nil
  | cons b rest ih =>
    rcases wordStartsFrom_cons i previous? b rest with hcons | hcons
    · rw [hcons]
      apply List.pairwise_cons.2
      refine ⟨fun start hstart => ?_, ih _ _⟩
      have := mem_wordStartsFrom hstart
      omega
    · rw [hcons]
      exact ih _ _

theorem length_wordStartsFrom_le (i : Nat) (previous? : Option UInt8) (bytes : Bytes) :
    (wordStartsFrom i previous? bytes).length ≤ bytes.length := by
  induction bytes generalizing i previous? with
  | nil => exact Nat.le_refl 0
  | cons b rest ih =>
    have := ih (i + 1) (some b)
    rcases wordStartsFrom_cons i previous? b rest with hcons | hcons
    · simpa [hcons] using this
    · rw [hcons, List.length_cons]
      omega

theorem length_wordStarts_le (name : Bytes) : (wordStarts name).length ≤ name.length :=
  length_wordStartsFrom_le 0 none name

theorem pairwise_wordStarts (name : Bytes) : (wordStarts name).Pairwise (· < ·) :=
  pairwise_wordStartsFrom 0 none name

theorem lt_length_of_mem_wordStarts {name : Bytes} {start : Nat} (h : start ∈ wordStarts name) :
    start < name.length := by
  have := mem_wordStartsFrom h
  omega

/-! ### Humps -/

theorem length_humpsAt (name : Bytes) (starts : List Nat) :
    (humpsAt name starts).length = starts.length := by
  induction starts using humpsAt.induct with
  | case1 => rfl
  | case2 start => rfl
  | case3 start next starts ih => simpa [humpsAt] using ih

theorem getElem?_humpsAt (name : Bytes) (starts : List Nat) (j : Nat) : (humpsAt name starts)[j]?
    = starts[j]?.map fun start => (name.take (starts[j + 1]?.getD name.length)).drop start := by
  induction starts using humpsAt.induct generalizing j with
  | case1 => rfl
  | case2 start =>
    cases j with
    | zero => simp [humpsAt]
    | succ j => simp [humpsAt]
  | case3 start next starts ih =>
    cases j with
    | zero => simp [humpsAt]
    | succ j => simpa [humpsAt] using ih j

theorem humpsAt_foldBytes (name : Bytes) (starts : List Nat) :
    humpsAt (foldBytes name) starts = (humpsAt name starts).map foldBytes := by
  induction starts using humpsAt.induct with
  | case1 => rfl
  | case2 start => simp [humpsAt, foldBytes, List.map_drop]
  | case3 start next starts ih => simpa [humpsAt, foldBytes, List.map_drop, List.map_take] using ih

end SymbolSearch.Pattern
