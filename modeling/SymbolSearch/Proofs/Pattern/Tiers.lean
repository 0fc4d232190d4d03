import Mathlib.Order.Bounds.Basic
import SymbolSearch.Pattern.Score
import SymbolSearch.Proofs.Pattern.Humps

/-!
# Kinds of fits

A name fits exactly when it is the pattern up to the case of letters, and initially when it goes on
after the pattern. Of the places further inside, those at the start of a word count, but not the
first word start, which is passed over even where the name begins with a separator.
-/

namespace SymbolSearch.Pattern

/-- Up to the case of letters, the pattern stands in the name at index `i`. -/
def StandsAt (pattern name : Bytes) (i : Nat) : Prop :=
  foldBytes pattern <+: (foldBytes name).drop i

instance (pattern name : Bytes) (i : Nat) : Decidable (StandsAt pattern name i) :=
  inferInstanceAs (Decidable (foldBytes pattern <+: (foldBytes name).drop i))

variable {pattern name : Bytes}

@[simp]
theorem length_foldBytes (bytes : Bytes) : (foldBytes bytes).length = bytes.length :=
  List.length_map fold

/-! ### Case -/

theorem caseBonus_self (pattern : Bytes) : caseBonus pattern pattern = pattern.length := by
  induction pattern with
  | nil => rfl
  | cons b rest ih =>
    rw [caseBonus] at ih
    simp [caseBonus, ih]

theorem caseBonus_le (pattern name : Bytes) : caseBonus pattern name ≤ pattern.length := by
  apply Nat.le_trans List.countP_le_length
  rw [List.length_zip]
  exact Nat.min_le_left _ _

/-- Only the very letters of the pattern earn the whole bonus. -/
theorem eq_of_caseBonus_eq (hlength : name.length = pattern.length)
    (h : caseBonus pattern name = pattern.length) : name = pattern := by
  have hzip : (pattern.zip name).length = pattern.length := by
    rw [List.length_zip, hlength, Nat.min_self]
  rw [← hzip, caseBonus, List.countP_eq_length] at h
  apply List.ext_getElem hlength
  intro i hname hpattern
  have hmem : (pattern[i], name[i]) ∈ pattern.zip name := by
    rw [← List.getElem_zip (h := by omega)]
    exact List.getElem_mem _
  exact (beq_iff_eq.1 (h _ hmem)).symm

/-! ### Names that begin with the pattern -/

theorem scoreBytes_of_eq (h : foldBytes name = foldBytes pattern) :
    scoreBytes pattern name = some ⟨.exact, caseBonus pattern name⟩ := by
  have hlength : name.length = pattern.length := by
    rw [← length_foldBytes name, h, length_foldBytes]
  have hbegins : (foldBytes pattern).isPrefixOf (foldBytes name) = true :=
    List.isPrefixOf_iff_prefix.2 ⟨[], by rw [List.append_nil, h]⟩
  rw [scoreBytes, if_neg (by omega), if_pos hbegins, if_pos hlength]

theorem scoreBytes_of_begins (h : foldBytes pattern <+: foldBytes name)
    (hlength : pattern.length < name.length) :
    scoreBytes pattern name = some ⟨.initial, 1000000 - name.length + caseBonus pattern name⟩ := by
  rw [scoreBytes, if_neg (by omega), if_pos (List.isPrefixOf_iff_prefix.2 h), if_neg (by omega)]

theorem scoreBytes_of_not_begins (h : ¬ foldBytes pattern <+: foldBytes name) :
    scoreBytes pattern name
      = if name.length < pattern.length then none else scoreInside pattern name := by
  rw [scoreBytes, if_neg fun hbegins => h (List.isPrefixOf_iff_prefix.1 hbegins)]

/-- A name begins with the pattern if it is the pattern, if it goes on after it, or not at all. -/
theorem eq_or_prefix_or_not (pattern name : Bytes) :
    foldBytes name = foldBytes pattern
    ∨ foldBytes pattern <+: foldBytes name ∧ pattern.length < name.length
    ∨ ¬ foldBytes pattern <+: foldBytes name := by
  by_cases hbegins : foldBytes pattern <+: foldBytes name
  · have hle := hbegins.length_le
    rw [length_foldBytes, length_foldBytes] at hle
    rcases Nat.lt_or_eq_of_le hle with hlt | heq
    · exact .inr (.inl ⟨hbegins, hlt⟩)
    · refine .inl (hbegins.eq_of_length ?_).symm
      rw [length_foldBytes, length_foldBytes, heq]
  · exact .inr (.inr hbegins)

/-! ### Names with the pattern inside -/

/-- The first hit in an ascending list is the least one. -/
theorem find?_eq_some_iff_isLeast {p : Nat → Bool} {starts : List Nat}
    (h : starts.Pairwise (· < ·)) {i : Nat} :
    starts.find? p = some i ↔ IsLeast {i | i ∈ starts ∧ p i = true} i := by
  induction starts with
  | nil => simp [IsLeast]
  | cons start rest ih =>
    obtain ⟨hstart, hrest⟩ := List.pairwise_cons.1 h
    by_cases hp : p start = true
    · have hleast : IsLeast {i | i ∈ start :: rest ∧ p i = true} start := by
        refine ⟨⟨List.mem_cons_self, hp⟩, ?_⟩
        rintro other ⟨hother, -⟩
        rcases List.mem_cons.1 hother with rfl | hother
        · exact Nat.le_refl _
        · exact Nat.le_of_lt (hstart other hother)
      rw [List.find?_cons_of_pos hp, Option.some_inj]
      constructor
      · rintro rfl
        exact hleast
      · exact fun hi => hleast.unique hi
    · have hset : {i | i ∈ start :: rest ∧ p i = true} = {i | i ∈ rest ∧ p i = true} := by
        ext other
        simp only [Set.mem_ofPred_eq, List.mem_cons]
        constructor
        · rintro ⟨rfl | hother, hhit⟩
          · exact absurd hhit hp
          · exact ⟨hother, hhit⟩
        · exact fun ⟨hother, hhit⟩ => ⟨.inr hother, hhit⟩
      rw [List.find?_cons_of_neg hp, hset]
      exact ih hrest

/-- The places at which the pattern stands at the start of a word, but for the first such start. -/
def laterPlaces (pattern name : Bytes) : Set Nat :=
  {i | i ∈ (wordStarts name).tail ∧ StandsAt pattern name i}

theorem length_le_of_mem_laterPlaces {i : Nat} (h : i ∈ laterPlaces pattern name) :
    pattern.length ≤ name.length := by
  have hle := h.2.length_le
  rw [List.length_drop, length_foldBytes, length_foldBytes] at hle
  omega

theorem find?_later_eq_some_iff {i : Nat} :
    ((wordStarts name).tail.find? fun start =>
        (foldBytes pattern).isPrefixOf ((foldBytes name).drop start)) = some i
      ↔ IsLeast (laterPlaces pattern name) i := by
  rw [find?_eq_some_iff_isLeast (pairwise_wordStarts name).tail]
  simp only [List.isPrefixOf_iff_prefix]
  rfl

theorem exists_isLeast_laterPlaces (h : (laterPlaces pattern name).Nonempty) :
    ∃ i, IsLeast (laterPlaces pattern name) i := by
  obtain ⟨start, hmem, hstands⟩ := h
  have hsome : ((wordStarts name).tail.find? fun start =>
      (foldBytes pattern).isPrefixOf ((foldBytes name).drop start)).isSome := by
    rw [List.find?_isSome]
    exact ⟨start, hmem, List.isPrefixOf_iff_prefix.2 hstands⟩
  obtain ⟨i, hi⟩ := Option.isSome_iff_exists.1 hsome
  exact ⟨i, find?_later_eq_some_iff.1 hi⟩

theorem scoreInside_of_isLeast {i : Nat} (h : IsLeast (laterPlaces pattern name) i) :
    scoreInside pattern name
      = some ⟨.substring, 1000000 - name.length - i + caseBonus pattern (name.drop i)⟩ := by
  simp only [scoreInside, find?_later_eq_some_iff.2 h]

theorem kind_of_scoreInside {fit : MatchScore} (hfit : scoreInside pattern name = some fit) :
    fit.kind = .substring ∧ (laterPlaces pattern name).Nonempty
      ∨ fit.kind = .camelCase ∧ ¬ (laterPlaces pattern name).Nonempty := by
  cases hfind : (wordStarts name).tail.find? fun start =>
      (foldBytes pattern).isPrefixOf ((foldBytes name).drop start) with
  | some i =>
    have hleast := find?_later_eq_some_iff.1 hfind
    rw [scoreInside_of_isLeast hleast, Option.some_inj] at hfit
    exact .inl ⟨hfit ▸ rfl, i, hleast.1⟩
  | none =>
    simp only [scoreInside, hfind] at hfit
    obtain ⟨score, -, rfl⟩ := Option.map_eq_some_iff.1 hfit
    refine .inr ⟨rfl, ?_⟩
    rintro ⟨i, hmem, hstands⟩
    exact List.find?_eq_none.1 hfind i hmem (List.isPrefixOf_iff_prefix.2 hstands)

theorem scoreBytes_of_isLeast (h : ¬ foldBytes pattern <+: foldBytes name) {i : Nat}
    (hleast : IsLeast (laterPlaces pattern name) i) : scoreBytes pattern name
      = some ⟨.substring, 1000000 - name.length - i + caseBonus pattern (name.drop i)⟩ := by
  have hle := length_le_of_mem_laterPlaces hleast.1
  rw [scoreBytes_of_not_begins h, if_neg (by omega), scoreInside_of_isLeast hleast]

/-! ### Kinds -/

/-- Each kind of fit has its condition on where the pattern stands. -/
theorem kind_cases {fit : MatchScore} (hfit : scoreBytes pattern name = some fit) :
    fit.kind = .exact ∧ foldBytes name = foldBytes pattern
    ∨ fit.kind = .initial ∧ foldBytes pattern <+: foldBytes name ∧ pattern.length < name.length
    ∨ fit.kind = .substring ∧ ¬ foldBytes pattern <+: foldBytes name
      ∧ (laterPlaces pattern name).Nonempty
    ∨ fit.kind = .camelCase ∧ ¬ foldBytes pattern <+: foldBytes name
      ∧ ¬ (laterPlaces pattern name).Nonempty := by
  rcases eq_or_prefix_or_not pattern name with heq | ⟨hbegins, hlength⟩ | hnot
  · rw [scoreBytes_of_eq heq, Option.some_inj] at hfit
    exact .inl ⟨hfit ▸ rfl, heq⟩
  · rw [scoreBytes_of_begins hbegins hlength, Option.some_inj] at hfit
    exact .inr (.inl ⟨hfit ▸ rfl, hbegins, hlength⟩)
  · rw [scoreBytes_of_not_begins hnot] at hfit
    split at hfit
    · exact absurd hfit (by simp)
    · rcases kind_of_scoreInside hfit with ⟨hkind, hplaces⟩ | ⟨hkind, hplaces⟩
      · exact .inr (.inr (.inl ⟨hkind, hnot, hplaces⟩))
      · exact .inr (.inr (.inr ⟨hkind, hnot, hplaces⟩))

theorem kind_eq_exact_iff :
    (scoreBytes pattern name).map (·.kind) = some .exact ↔ foldBytes name = foldBytes pattern := by
  constructor
  · intro h
    obtain ⟨fit, hfit, hkind⟩ := Option.map_eq_some_iff.1 h
    simpa [hkind] using kind_cases hfit
  · intro h
    rw [scoreBytes_of_eq h]
    rfl

theorem kind_eq_initial_iff : (scoreBytes pattern name).map (·.kind) = some .initial
    ↔ foldBytes pattern <+: foldBytes name ∧ pattern.length < name.length := by
  constructor
  · intro h
    obtain ⟨fit, hfit, hkind⟩ := Option.map_eq_some_iff.1 h
    simpa [hkind] using kind_cases hfit
  · rintro ⟨hbegins, hlength⟩
    rw [scoreBytes_of_begins hbegins hlength]
    rfl

theorem kind_eq_substring_iff (h : ¬ foldBytes pattern <+: foldBytes name) :
    (scoreBytes pattern name).map (·.kind) = some .substring
      ↔ (laterPlaces pattern name).Nonempty := by
  constructor
  · intro hkind
    obtain ⟨fit, hfit, hkind⟩ := Option.map_eq_some_iff.1 hkind
    have hplaces := kind_cases hfit
    simp only [hkind, reduceCtorEq, false_and, true_and, false_or, or_false] at hplaces
    exact hplaces.2
  · intro hplaces
    obtain ⟨i, hleast⟩ := exists_isLeast_laterPlaces hplaces
    rw [scoreBytes_of_isLeast h hleast]
    rfl

/-! ### The best fit -/

theorem scoreBytes_self (pattern : Bytes) :
    scoreBytes pattern pattern = some ⟨.exact, pattern.length⟩ := by
  rw [scoreBytes_of_eq rfl, caseBonus_self]

/-- The pattern itself fits best, and any other name fits worse. -/
theorem order_exact {fit : MatchScore} (hfit : scoreBytes pattern name = some fit) :
    name = pattern ∨ MatchScore.order ⟨.exact, pattern.length⟩ fit = .gt := by
  cases hkind : fit.kind with
  | exact =>
    have heq : foldBytes name = foldBytes pattern :=
      kind_eq_exact_iff.1 (by rw [hfit, Option.map_some, hkind])
    have hlength : name.length = pattern.length := by
      rw [← length_foldBytes name, heq, length_foldBytes]
    rw [scoreBytes_of_eq heq, Option.some_inj] at hfit
    subst hfit
    by_cases hbonus : caseBonus pattern name = pattern.length
    · exact .inl (eq_of_caseBonus_eq hlength hbonus)
    · have hle := caseBonus_le pattern name
      right
      rw [MatchScore.order]
      simp only [Nat.compare_eq_eq.2, Ordering.eq_then]
      exact Int.compare_eq_gt.2 (by omega)
  | _ =>
    right
    rw [MatchScore.order, hkind]
    rfl

/-! ### The first word -/

/-- The places at which the pattern stands at the start of a word. -/
def wordPlaces (pattern name : Bytes) : Set Nat :=
  {i | i ∈ wordStarts name ∧ StandsAt pattern name i}

/-- Nothing is missed unless the pattern stands at the first word start. -/
theorem laterPlaces_eq_iff : laterPlaces pattern name = wordPlaces pattern name
    ↔ ∀ i, (wordStarts name).head? = some i → ¬ StandsAt pattern name i := by
  have hsorted := pairwise_wordStarts name
  rw [laterPlaces, wordPlaces]
  cases hstarts : wordStarts name with
  | nil => simp
  | cons start rest =>
    rw [hstarts, List.pairwise_cons] at hsorted
    rw [List.head?_cons, List.tail_cons]
    constructor
    · rintro heq i hhead hstands
      obtain rfl := Option.some.inj hhead
      have hmem : start ∈ {i | i ∈ rest ∧ StandsAt pattern name i} := by
        rw [heq]
        exact ⟨List.mem_cons_self, hstands⟩
      exact Nat.lt_irrefl start (hsorted.1 start hmem.1)
    · intro hfirst
      ext i
      constructor
      · exact fun ⟨hmem, hstands⟩ => ⟨List.mem_cons_of_mem _ hmem, hstands⟩
      · rintro ⟨hmem, hstands⟩
        rcases List.mem_cons.1 hmem with rfl | hmem
        · exact absurd hstands (hfirst i rfl)
        · exact ⟨hmem, hstands⟩

/-- The first word starts with the name, unless the name begins with a separator. -/
theorem head?_wordStarts {b : UInt8} {rest : Bytes} (h : isSeparator b = false) :
    (wordStarts (b :: rest)).head? = some 0 := by
  simp [wordStarts, wordStartsFrom, h]

/-- A name fits exactly if it is the pattern and initially if it goes on after the pattern, up to the
case of letters. Any other name has the pattern inside if the pattern stands at a word start other
than the first, and the least such place is scored. Nothing is missed at the first word start unless
the name begins with a separator. -/
theorem score_tiers (text name : String) (htext : Text.isBlank text = false) :
    let pattern := Bytes.ofString (Text.trim text)
    let bytes := Bytes.ofString name
    let fit? := (Pattern.ofText? text).bind (·.score name)
    let kind? := fit?.map (·.kind)
    (kind? = some .exact ↔ foldBytes bytes = foldBytes pattern)
    ∧ (kind? = some .initial
      ↔ foldBytes pattern <+: foldBytes bytes ∧ pattern.length < bytes.length)
    ∧ (¬ foldBytes pattern <+: foldBytes bytes →
      (kind? = some .substring ↔ (laterPlaces pattern bytes).Nonempty)
      ∧ (∀ i, IsLeast (laterPlaces pattern bytes) i → fit?
        = some ⟨.substring, 1000000 - bytes.length - i + caseBonus pattern (bytes.drop i)⟩)
      ∧ (laterPlaces pattern bytes = wordPlaces pattern bytes
        ↔ ∀ i, (wordStarts bytes).head? = some i → ¬ StandsAt pattern bytes i)
      ∧ ((∀ b ∈ bytes.head?, isSeparator b = false) →
        laterPlaces pattern bytes = wordPlaces pattern bytes)) := by
  intro pattern bytes fit? kind?
  have hfit : fit? = scoreBytes pattern bytes := by
    change (Pattern.ofText? text).bind _ = _
    rw [Pattern.ofText?, htext]
    rfl
  have hkind : kind? = (scoreBytes pattern bytes).map (·.kind) :=
    congrArg (Option.map (·.kind)) hfit
  rw [hfit, hkind]
  refine ⟨kind_eq_exact_iff, kind_eq_initial_iff, fun hnot => ?_⟩
  refine ⟨kind_eq_substring_iff hnot, fun i => scoreBytes_of_isLeast hnot, laterPlaces_eq_iff, ?_⟩
  intro hfirst
  apply laterPlaces_eq_iff.2
  intro i hi hstands
  cases hbytes : bytes with
  | nil => simp [hbytes, wordStarts, wordStartsFrom] at hi
  | cons b rest =>
    rw [hbytes, head?_wordStarts (hfirst b (by simp [hbytes]))] at hi
    obtain rfl := Option.some.inj hi
    exact hnot hstands

/-- After a leading separator, the pattern is found at the start of the second word. -/
theorem score_tiers_of_separators :
    let pattern := Bytes.ofString (Text.trim " bar ")
    let bytes := Bytes.ofString "_foo_Bar"
    Text.isBlank " bar " = false ∧ ¬ foldBytes pattern <+: foldBytes bytes
      ∧ wordStarts bytes = [1, 5] ∧ laterPlaces pattern bytes = wordPlaces pattern bytes
      ∧ (Pattern.ofText? " bar ").bind (·.score "_foo_Bar") = some ⟨.substring, 999989⟩ := by
  intro pattern bytes
  have htext : Text.isBlank " bar " = false := by decide +kernel
  have hnot : ¬ foldBytes pattern <+: foldBytes bytes := by decide +kernel
  have hstarts : wordStarts bytes = [1, 5] := by decide +kernel
  have hleast : IsLeast (laterPlaces pattern bytes) 5 :=
    find?_later_eq_some_iff.1 (by decide +kernel)
  obtain ⟨-, hscore, hplaces, -⟩ := (score_tiers " bar " "_foo_Bar" htext).2.2 hnot
  refine ⟨htext, hnot, hstarts, ?_, ?_⟩
  · apply hplaces.2
    intro i hi
    rw [hstarts] at hi
    obtain rfl := Option.some.inj hi
    decide +kernel
  · have hvalue := hscore 5 hleast
    rw [hvalue]
    decide +kernel

/-- A word that follows on a leading separator is missed, although the pattern stands there. -/
theorem score_misses_first_word :
    let pattern := Bytes.ofString (Text.trim "fo")
    let bytes := Bytes.ofString "_fo"
    Text.isBlank "fo" = false ∧ ¬ foldBytes pattern <+: foldBytes bytes
      ∧ IsLeast (wordPlaces pattern bytes) 1
      ∧ (Pattern.ofText? "fo").bind (·.score "_fo") = none := by
  intro pattern bytes
  have hstarts : wordStarts bytes = [1] := by decide +kernel
  refine ⟨by decide +kernel, by decide +kernel, ⟨⟨?_, ?_⟩, ?_⟩, by decide +kernel⟩
  · rw [hstarts]
    exact List.mem_cons_self
  · decide +kernel
  · rintro i ⟨hmem, -⟩
    rw [hstarts, List.mem_singleton] at hmem
    exact Nat.le_of_eq hmem.symm

end SymbolSearch.Pattern
