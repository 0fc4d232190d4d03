import Mathlib.Data.List.Nodup

/-!
# Lists without repetitions

Facts on lists from which every item but the first of its kind has been dropped, and on look-ups,
which stop at the first item with a key.
-/

namespace SymbolSearch.Distinct

variable {α β : Type}

/-- Induction along the way in which repetitions are dropped. -/
theorem eraseDups_induction [BEq α] {motive : List α → Prop} (nil : motive [])
    (cons : ∀ a rest, motive (rest.filter fun b => !(b == a)) → motive (a :: rest)) :
    ∀ items, motive items
  | [] => nil
  | a :: rest => cons a rest (eraseDups_induction nil cons _)
termination_by items => items.length
decreasing_by exact Nat.lt_succ_of_le (List.length_filter_le _ rest)

theorem mem_of_mem_eraseDups [BEq α] {a : α} (items : List α) (h : a ∈ items.eraseDups) :
    a ∈ items := by
  induction items using eraseDups_induction with
  | nil => cases h
  | cons b rest ih =>
    rw [List.eraseDups_cons] at h
    rcases List.mem_cons.1 h with rfl | h
    · exact List.mem_cons_self
    · exact List.mem_cons_of_mem _ (List.mem_of_mem_filter (ih h))

/-- A function that tells the items of a list apart as well as they are told apart themselves keeps
the order of their first occurrences. -/
theorem eraseDups_map_of_beq [BEq α] [BEq β] (f : α → β) (items : List α)
    (hf : ∀ a ∈ items, ∀ b ∈ items, (f a == f b) = (a == b)) :
    (items.map f).eraseDups = items.eraseDups.map f := by
  induction items using eraseDups_induction with
  | nil => rfl
  | cons a rest ih =>
    have hfilter : (rest.map f).filter (fun b => !(b == f a))
        = (rest.filter fun b => !(b == a)).map f := by
      rw [List.filter_map]
      apply congrArg
      apply List.filter_congr
      intro b hb
      rw [Function.comp_apply, hf b (List.mem_cons_of_mem _ hb) a List.mem_cons_self]
    have hrest := ih fun b hb c hc => hf b (List.mem_cons_of_mem _ (List.mem_of_mem_filter hb)) c
      (List.mem_cons_of_mem _ (List.mem_of_mem_filter hc))
    rw [List.map_cons, List.eraseDups_cons, List.eraseDups_cons, List.map_cons, hfilter, hrest]

/-- Nothing is dropped if no item is found equal to one before it. -/
theorem eraseDups_eq_self_of_pairwise [BEq α] {items : List α}
    (h : items.Pairwise fun a b => (b == a) = false) : items.eraseDups = items := by
  induction items with
  | nil => rfl
  | cons a rest ih =>
    obtain ⟨hfirst, hrest⟩ := List.pairwise_cons.1 h
    have hfilter : (rest.filter fun b => !(b == a)) = rest := by
      apply List.filter_eq_self.2
      intro b hb
      rw [hfirst b hb]
      rfl
    rw [List.eraseDups_cons, hfilter, ih hrest]

variable [BEq α] [LawfulBEq α]

theorem eraseDups_map [BEq β] [LawfulBEq β] (f : α → β) (items : List α)
    (hf : ∀ a ∈ items, ∀ b ∈ items, f a = f b → a = b) :
    (items.map f).eraseDups = items.eraseDups.map f := by
  apply eraseDups_map_of_beq f items
  intro a ha b hb
  rw [Bool.eq_iff_iff, beq_iff_eq, beq_iff_eq]
  exact ⟨hf a ha b hb, congrArg f⟩

/-- Repetitions may be dropped before or after a selection. -/
theorem eraseDups_filter (p : α → Bool) (items : List α) :
    (items.filter p).eraseDups = items.eraseDups.filter p := by
  induction items using eraseDups_induction with
  | nil => rfl
  | cons a rest ih =>
    have hcomm : (rest.filter p).filter (fun b => !(b == a))
        = (rest.filter fun b => !(b == a)).filter p := by
      rw [List.filter_filter, List.filter_filter]
      exact List.filter_congr fun b _ => Bool.and_comm _ _
    rw [List.eraseDups_cons]
    by_cases ha : p a = true
    · rw [List.filter_cons_of_pos ha, List.filter_cons_of_pos ha, List.eraseDups_cons, hcomm, ih]
    · have habsent : (rest.filter fun b => !(b == a)).filter p = rest.filter p := by
        rw [← hcomm]
        apply List.filter_eq_self.2
        intro b hb
        have hne : b ≠ a := by
          rintro rfl
          exact ha (List.mem_filter.1 hb).2
        rw [beq_false_of_ne hne]
        rfl
      rw [List.filter_cons_of_neg ha, List.filter_cons_of_neg ha, ← ih, habsent]

theorem eraseDups_append_of_disjoint {items others : List α} (h : ∀ a ∈ others, a ∉ items) :
    (items ++ others).eraseDups = items.eraseDups ++ others.eraseDups := by
  have hremove : others.removeAll items = others := by
    apply List.filter_eq_self.2
    intro a ha
    simpa using h a ha
  rw [List.eraseDups_append, hremove]

theorem eraseDups_eq_self {items : List α} (h : items.Nodup) : items.eraseDups = items :=
  eraseDups_eq_self_of_pairwise (h.imp fun hne => beq_false_of_ne (Ne.symm hne))

theorem nodup_eraseDups (items : List α) : items.eraseDups.Nodup := by
  induction items using eraseDups_induction with
  | nil => exact List.nodup_nil
  | cons a rest ih =>
    rw [List.eraseDups_cons]
    refine List.nodup_cons.2 ⟨?_, ih⟩
    simp

theorem idxOf_lt_length_eraseDups {items : List α} {a : α} (h : a ∈ items) :
    items.eraseDups.idxOf a < items.eraseDups.length :=
  List.idxOf_lt_length_iff.2 (List.mem_eraseDups.2 h)

/-- A look-up does not see the items of other keys. -/
theorem lookup_filter_ne {key other : α} (hne : other ≠ key) (items : List (α × β)) :
    (items.filter (·.1 != key)).lookup other = items.lookup other := by
  induction items with
  | nil => rfl
  | cons item rest ih =>
    obtain ⟨first, value⟩ := item
    by_cases hfirst : first = key
    · subst hfirst
      rw [List.filter_cons_of_neg (by simp), ih, List.lookup_cons, beq_eq_false_iff_ne.2 hne]
    · rw [List.filter_cons_of_pos (by simpa using hfirst), List.lookup_cons, List.lookup_cons, ih]

end SymbolSearch.Distinct
