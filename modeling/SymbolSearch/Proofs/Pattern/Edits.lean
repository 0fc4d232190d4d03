import SymbolSearch.Pattern.Distance

/-!
# Edits

What an edit of a text is, and how many edits take one text to another. Edits may come in any order
and undo one another. They can be put in order, from the front of the texts to the back, without
becoming more: a swap then has the characters between the two swapped ones deleted first, and those
that come between them inserted afterwards.
-/

namespace SymbolSearch.Pattern

variable {m n : Nat} {text other result as bs cs : List Char}

/-- A character is inserted, deleted or replaced, or two neighbours are swapped, at the front of the
text or further on. -/
inductive Edit : List Char → List Char → Prop where
  | insert (c : Char) (rest : List Char) : Edit rest (c :: rest)
  | delete (c : Char) (rest : List Char) : Edit (c :: rest) rest
  | replace (a b : Char) (rest : List Char) : Edit (a :: rest) (b :: rest)
  | swap (a b : Char) (rest : List Char) : Edit (a :: b :: rest) (b :: a :: rest)
  | later (c : Char) {text other : List Char} : Edit text other → Edit (c :: text) (c :: other)

/-- So many edits, one after the other. -/
inductive Edits : Nat → List Char → List Char → Prop where
  | none (text : List Char) : Edits 0 text text
  | more {n : Nat} {text other result : List Char} :
    Edits n text other → Edit other result → Edits (n + 1) text result

theorem Edit.laters (front : List Char) (h : Edit text other) :
    Edit (front ++ text) (front ++ other) := by
  induction front with
  | nil => exact h
  | cons c front ih => exact .later c ih

theorem Edit.append (back : List Char) (h : Edit text other) :
    Edit (text ++ back) (other ++ back) := by
  induction h with
  | insert c rest => exact .insert c (rest ++ back)
  | delete c rest => exact .delete c (rest ++ back)
  | replace a b rest => exact .replace a b (rest ++ back)
  | swap a b rest => exact .swap a b (rest ++ back)
  | later c _ ih => exact .later c ih

theorem Edit.reverse (h : Edit text other) : Edit text.reverse other.reverse := by
  induction h with
  | insert c rest =>
    have := Edit.laters rest.reverse (.insert c [])
    simpa using this
  | delete c rest =>
    have := Edit.laters rest.reverse (.delete c [])
    simpa using this
  | replace a b rest =>
    have := Edit.laters rest.reverse (.replace a b [])
    simpa using this
  | swap a b rest =>
    have := Edit.laters rest.reverse (.swap b a [])
    simpa using this
  | later c _ ih =>
    have := Edit.append [c] ih
    simpa using this

theorem Edit.cons {c : Char} (h : Edit (c :: text) result) :
    (∃ d, result = d :: c :: text) ∨ result = text ∨ (∃ d, result = d :: text)
    ∨ (∃ d rest, text = d :: rest ∧ result = d :: c :: rest)
    ∨ ∃ other, Edit text other ∧ result = c :: other := by
  cases h with
  | insert d => exact .inl ⟨d, rfl⟩
  | delete => exact .inr (.inl rfl)
  | replace _ d => exact .inr (.inr (.inl ⟨d, rfl⟩))
  | swap _ d rest => exact .inr (.inr (.inr (.inl ⟨d, rest, rfl, rfl⟩)))
  | later _ h => exact .inr (.inr (.inr (.inr ⟨_, h, rfl⟩)))

theorem Edit.length_le (h : Edit text other) :
    text.length ≤ other.length + 1 ∧ other.length ≤ text.length + 1 := by
  induction h with
  | later c _ ih =>
    simp only [List.length_cons]
    omega
  | _ =>
    simp only [List.length_cons]
    omega

theorem Edits.trans (h : Edits m text other) (hmore : Edits n other result) :
    Edits (m + n) text result := by
  induction hmore with
  | none => exact h
  | more _ hedit ih => exact .more (ih h) hedit

theorem Edits.one (h : Edit text other) : Edits 1 text other := .more (.none text) h

theorem Edits.laters (front : List Char) (h : Edits n text other) :
    Edits n (front ++ text) (front ++ other) := by
  induction h with
  | none => exact .none _
  | more _ hedit ih => exact .more ih (hedit.laters front)

theorem Edits.reverse (h : Edits n text other) : Edits n text.reverse other.reverse := by
  induction h with
  | none => exact .none _
  | more _ hedit ih => exact .more ih hedit.reverse

theorem Edits.reverse_iff : Edits n text.reverse other.reverse ↔ Edits n text other := by
  constructor
  · intro h
    simpa using h.reverse
  · exact Edits.reverse

/-- An edit changes the length by one at most. -/
theorem Edits.length_le (h : Edits n text other) :
    text.length ≤ other.length + n ∧ other.length ≤ text.length + n := by
  induction h with
  | none => omega
  | more _ hedit ih =>
    have := hedit.length_le
    omega

theorem Edits.deletes (front text : List Char) : Edits front.length (front ++ text) text := by
  induction front with
  | nil => exact .none text
  | cons c front ih =>
    rw [List.length_cons, Nat.add_comm]
    exact (Edits.one (.delete c (front ++ text))).trans ih

theorem Edits.inserts (front text : List Char) : Edits front.length text (front ++ text) := by
  induction front with
  | nil => exact .none text
  | cons c front ih => exact .more ih (.insert c (front ++ text))

/-! ### Edits in order -/

/-- The texts are taken to one another by at most so many edits in order. -/
inductive Within : Nat → List Char → List Char → Prop where
  | nil : Within 0 [] []
  | delete {n : Nat} {as bs : List Char} (a : Char) : Within n as bs → Within (n + 1) (a :: as) bs
  | insert {n : Nat} {as bs : List Char} (b : Char) : Within n as bs → Within (n + 1) as (b :: bs)
  | keep {n : Nat} {as bs : List Char} (c : Char) : Within n as bs → Within n (c :: as) (c :: bs)
  | replace {n : Nat} {as bs : List Char} (a b : Char) :
    Within n as bs → Within (n + 1) (a :: as) (b :: bs)
  | cross {n : Nat} {as bs : List Char} (a b : Char) (gone come : List Char) : Within n as bs →
    Within (n + gone.length + come.length + 1) (a :: (gone ++ b :: as)) (b :: (come ++ a :: bs))
  | weaken {n : Nat} {as bs : List Char} : Within n as bs → Within (n + 1) as bs

namespace Within

theorem mono (h : Within m as bs) (hle : m ≤ n) : Within n as bs := by
  induction hle with
  | refl => exact h
  | step _ ih => exact .weaken ih

theorem refl (text : List Char) : Within 0 text text := by
  induction text with
  | nil => exact .nil
  | cons c rest ih => exact .keep c ih

theorem deletes (gone : List Char) (h : Within n as bs) :
    Within (n + gone.length) (gone ++ as) bs := by
  induction gone with
  | nil => exact h
  | cons c gone ih => exact .delete c ih

theorem inserts (come : List Char) (h : Within n as bs) :
    Within (n + come.length) as (come ++ bs) := by
  induction come with
  | nil => exact h
  | cons c come ih => exact .insert c ih

theorem edits (h : Within n as bs) : ∃ k ≤ n, Edits k as bs := by
  induction h with
  | nil => exact ⟨0, Nat.le_refl 0, .none []⟩
  | @delete n as bs a _ ih =>
    obtain ⟨k, hk, hedits⟩ := ih
    exact ⟨1 + k, by omega, (Edits.one (.delete a as)).trans hedits⟩
  | insert b _ ih =>
    obtain ⟨k, hk, hedits⟩ := ih
    exact ⟨k + 1, by omega, .more hedits (.insert b _)⟩
  | keep c _ ih =>
    obtain ⟨k, hk, hedits⟩ := ih
    exact ⟨k, hk, hedits.laters [c]⟩
  | @replace n as bs a b _ ih =>
    obtain ⟨k, hk, hedits⟩ := ih
    exact ⟨1 + k, by omega, (Edits.one (.replace a b as)).trans (hedits.laters [b])⟩
  | @cross n as bs a b gone come _ ih =>
    obtain ⟨k, hk, hedits⟩ := ih
    have hgone : Edits gone.length (a :: (gone ++ b :: as)) (a :: b :: as) :=
      (Edits.deletes gone (b :: as)).laters [a]
    have hcome : Edits come.length (b :: a :: as) (b :: (come ++ a :: as)) :=
      (Edits.inserts come (a :: as)).laters [b]
    have hrest : Edits k (b :: (come ++ a :: as)) (b :: (come ++ a :: bs)) := by
      simpa using hedits.laters (b :: (come ++ [a]))
    exact ⟨_, by omega, (hgone.trans ((Edits.one (.swap a b as)).trans (hcome.trans hrest)))⟩
  | weaken _ ih =>
    obtain ⟨k, hk, hedits⟩ := ih
    exact ⟨k, by omega, hedits⟩

theorem length_le (h : Within n as bs) : as.length ≤ n + bs.length ∧ bs.length ≤ n + as.length := by
  obtain ⟨k, hk, hedits⟩ := h.edits
  have := hedits.length_le
  omega

/-- The character at the front of the second text is inserted, or kept, replaced or swapped when the
characters before it are deleted. -/
inductive Front (b : Char) (bs : List Char) : Nat → List Char → Prop where
  | insert {n : Nat} {as : List Char} : Within n as bs → Front b bs (n + 1) as
  | keep {n : Nat} {as : List Char} (gone : List Char) :
    Within n as bs → Front b bs (n + gone.length) (gone ++ b :: as)
  | replace {n : Nat} {as : List Char} (gone : List Char) (a : Char) :
    Within n as bs → Front b bs (n + gone.length + 1) (gone ++ a :: as)
  | cross {n : Nat} {as rest : List Char} (gone : List Char) (a : Char) (between come : List Char) :
    Within n as rest → bs = come ++ a :: rest →
    Front b bs (n + between.length + come.length + 1 + gone.length)
      (gone ++ a :: (between ++ b :: as))

theorem Front.delete {b : Char} (a : Char) (h : Front b bs n as) :
    Front b bs (n + 1) (a :: as) := by
  cases h with
  | insert h => exact .insert (.delete a h)
  | keep gone h => exact .keep (a :: gone) h
  | replace gone a' h => exact .replace (a :: gone) a' h
  | cross gone a' between come h hbs => exact .cross (a :: gone) a' between come h hbs

theorem front {b : Char} (h : Within n as (b :: bs)) : ∃ k ≤ n, Front b bs k as := by
  generalize htext : b :: bs = text at h
  induction h with
  | nil => cases htext
  | delete a _ ih =>
    obtain ⟨k, hk, hfront⟩ := ih htext
    exact ⟨k + 1, by omega, hfront.delete a⟩
  | insert b h =>
    cases htext
    exact ⟨_, Nat.le_refl _, .insert h⟩
  | keep c h =>
    cases htext
    exact ⟨_, Nat.le_refl _, .keep [] h⟩
  | replace a b h =>
    cases htext
    exact ⟨_, Nat.le_refl _, .replace [] a h⟩
  | cross a b gone come h =>
    cases htext
    exact ⟨_, Nat.le_refl _, .cross [] a gone come h rfl⟩
  | weaken _ ih =>
    obtain ⟨k, hk, hfront⟩ := ih htext
    exact ⟨k, by omega, hfront⟩

/-! ### One more edit -/

/-- A cross of which only one half is kept, all else being deleted and inserted. -/
theorem uncross (a b : Char) (between come : List Char) (h : Within n as bs) :
    Within (n + between.length + come.length + 1) (a :: (between ++ b :: as))
      (b :: (come ++ bs)) := by
  have hkept := (((h.inserts come).keep b).deletes between).delete a
  exact hkept.mono (by omega)

theorem delete_front {b : Char} (h : Within n as (b :: bs)) : Within (n + 1) as bs := by
  obtain ⟨k, hk, hfront⟩ := h.front
  cases hfront with
  | insert hrest => exact hrest.mono (by omega)
  | keep gone hrest => exact ((hrest.delete b).deletes gone).mono (by omega)
  | replace gone a hrest => exact ((hrest.delete a).deletes gone).mono (by omega)
  | cross gone a between come hrest hbs =>
    rw [hbs]
    have hkept := ((((hrest.delete b).deletes between).keep a).inserts come).deletes gone
    exact hkept.mono (by omega)

theorem replace_front {b : Char} (c : Char) (h : Within n as (b :: bs)) :
    Within (n + 1) as (c :: bs) := by
  obtain ⟨k, hk, hfront⟩ := h.front
  cases hfront with
  | insert hrest => exact (hrest.insert c).mono (by omega)
  | keep gone hrest => exact ((hrest.replace b c).deletes gone).mono (by omega)
  | replace gone a hrest => exact ((hrest.replace a c).deletes gone).mono (by omega)
  | cross gone a between come hrest hbs =>
    rw [hbs]
    have hkept := (((((hrest.delete b).deletes between).keep a).inserts come).insert c).deletes gone
    exact hkept.mono (by omega)

theorem insert_second {b : Char} (c : Char) (h : Within n as (b :: bs)) :
    Within (n + 1) as (b :: c :: bs) := by
  obtain ⟨k, hk, hfront⟩ := h.front
  cases hfront with
  | insert hrest => exact ((hrest.insert c).insert b).mono (by omega)
  | keep gone hrest => exact (((hrest.insert c).keep b).deletes gone).mono (by omega)
  | replace gone a hrest => exact (((hrest.insert c).replace a b).deletes gone).mono (by omega)
  | cross gone a between come hrest hbs =>
    rw [hbs]
    have hcrossed := (hrest.cross a b between (c :: come)).deletes gone
    rw [List.length_cons] at hcrossed
    exact hcrossed.mono (by omega)

/-- The first of two neighbours had been kept. -/
theorem swap_kept {b c : Char} (h : Within n as (c :: bs)) :
    Within (n + 1) (b :: as) (c :: b :: bs) := by
  obtain ⟨k, hk, hfront⟩ := h.front
  cases hfront with
  | insert hrest => exact ((hrest.keep b).insert c).mono (by omega)
  | keep gone hrest => exact (hrest.cross b c gone []).mono (by simp only [List.length_nil]; omega)
  | replace gone a hrest =>
    have hkept := (((hrest.delete a).deletes gone).keep b).insert c
    exact hkept.mono (by omega)
  | cross gone a between come hrest hbs =>
    rw [hbs]
    have hcome := ((((hrest.delete c).deletes between).keep a).inserts come).deletes gone
    exact ((hcome.keep b).insert c).mono (by omega)

theorem swap_front {b c : Char} (h : Within n as (b :: c :: bs)) :
    Within (n + 1) as (c :: b :: bs) := by
  obtain ⟨k, hk, hfront⟩ := h.front
  cases hfront with
  | insert hrest => exact (hrest.insert_second b).mono (by omega)
  | keep gone hrest => exact (hrest.swap_kept.deletes gone).mono (by omega)
  | replace gone a hrest => exact (((hrest.insert_second b).delete a).deletes gone).mono (by omega)
  | cross gone a between come hrest hbs =>
    cases come with
    | nil =>
      obtain ⟨rfl, rfl⟩ := List.cons.inj hbs
      have hkept := (((hrest.keep b).deletes between).keep c).deletes gone
      exact hkept.mono (by omega)
    | cons d come =>
      obtain ⟨rfl, rfl⟩ := List.cons.inj hbs
      have hcrossed := ((hrest.cross a b between come).insert c).deletes gone
      rw [List.length_cons] at hk
      exact hcrossed.mono (by omega)

/-- An edit after the inserted half of a cross leaves the other half alone, or destroys it. -/
theorem edit_cross {a : Char} {come rest : List Char} (h : Within n as rest)
    (hedits : ∀ other, Edit rest other → Within (n + 1) as other)
    (hedit : Edit (come ++ a :: rest) result) :
    ∃ come' rest' k, (result = come' ++ a :: rest' ∨ result = come' ++ rest')
      ∧ Within k as rest' ∧ k + come'.length ≤ n + come.length + 1 := by
  induction come generalizing result with
  | nil =>
    rcases hedit.cons with ⟨d, rfl⟩ | rfl | ⟨d, rfl⟩ | ⟨d, last, rfl, rfl⟩ | ⟨other, hother, rfl⟩
    · exact ⟨[d], rest, n, .inl rfl, h, Nat.le_refl _⟩
    · exact ⟨[], result, n, .inr rfl, h, Nat.le_succ n⟩
    · exact ⟨[d], rest, n, .inr rfl, h, Nat.le_refl _⟩
    · exact ⟨[], d :: a :: last, n + 1, .inr rfl, h.insert_second a, Nat.le_refl _⟩
    · exact ⟨[], other, n + 1, .inl rfl, hedits other hother, Nat.le_refl _⟩
  | cons c come ih =>
    rw [List.length_cons]
    rcases hedit.cons with ⟨d, rfl⟩ | rfl | ⟨d, rfl⟩ | ⟨d, last, hcome, rfl⟩ | ⟨other, hother, rfl⟩
    · exact ⟨d :: c :: come, rest, n, .inl rfl, h, by simp only [List.length_cons]; omega⟩
    · exact ⟨come, rest, n, .inl rfl, h, by omega⟩
    · exact ⟨d :: come, rest, n, .inl rfl, h, by simp only [List.length_cons]; omega⟩
    · cases come with
      | nil =>
        obtain ⟨rfl, rfl⟩ := List.cons.inj hcome
        exact ⟨[], c :: rest, n + 1, .inl rfl, h.insert c, Nat.le_add_right _ _⟩
      | cons d' come =>
        obtain ⟨rfl, rfl⟩ := List.cons.inj hcome
        exact ⟨d' :: c :: come, rest, n, .inl rfl, h, by simp only [List.length_cons]; omega⟩
    · obtain ⟨come', rest', k, hresult, hrest, hle⟩ := ih hother
      refine ⟨c :: come', rest', k, ?_, hrest, by simp only [List.length_cons]; omega⟩
      rcases hresult with rfl | rfl
      · exact .inl rfl
      · exact .inr rfl

/-- One edit more takes one more edit in order. -/
theorem edit (h : Within n as bs) (hedit : Edit bs cs) : Within (n + 1) as cs := by
  -- An edit further on may be one behind a whole cross, so the text gets shorter by any number of
  -- characters and induction on the edit does not do.
  induction hlength : bs.length using Nat.strongRecOn generalizing n as bs cs with
  | ind length ih =>
    subst hlength
    cases hedit with
    | insert c => exact h.insert c
    | delete => exact h.delete_front
    | replace _ c => exact h.replace_front c
    | swap => exact h.swap_front
    | @later c bs cs hedit =>
      obtain ⟨k, hk, hfront⟩ := h.front
      cases hfront with
      | insert hrest =>
        have hlater := ih bs.length (Nat.lt_succ_self _) hrest hedit rfl
        exact (hlater.insert c).mono (by omega)
      | keep gone hrest =>
        have hlater := ih bs.length (Nat.lt_succ_self _) hrest hedit rfl
        exact ((hlater.keep c).deletes gone).mono (by omega)
      | replace gone a hrest =>
        have hlater := ih bs.length (Nat.lt_succ_self _) hrest hedit rfl
        exact ((hlater.replace a c).deletes gone).mono (by omega)
      | @cross _ _ rest gone a between come hrest hbs =>
        have hshorter : rest.length < (c :: bs).length := by
          simp only [hbs, List.length_cons, List.length_append]
          omega
        rw [hbs] at hedit
        obtain ⟨come', rest', k, hresult, hlater, hle⟩ := edit_cross hrest
          (fun other hother => ih rest.length hshorter hrest hother rfl) hedit
        rcases hresult with rfl | rfl
        · exact ((hlater.cross a c between come').deletes gone).mono (by omega)
        · exact ((hlater.uncross a c between come').deletes gone).mono (by omega)

end Within

theorem Edits.within (h : Edits n text other) : Within n text other := by
  induction h with
  | none text => exact .refl text
  | more _ hedit ih => exact ih.edit hedit

/-- What can be had by edits can be had by as many edits in order. -/
theorem within_iff : Within n text other ↔ ∃ k ≤ n, Edits k text other := by
  constructor
  · exact Within.edits
  · rintro ⟨k, hk, hedits⟩
    exact hedits.within.mono hk

end SymbolSearch.Pattern
