import SymbolSearch.Proofs.Forest.Shape

/-!
# Numbered forests

The numbered form of a forest holds all of the forest: every row tells how many children and how
many symbols belong to it, so that the rows and the symbols of siblings can be told apart although
they only follow each other. Two indexes of the same fingerprint and table are the same index.
-/

namespace SymbolSearch

attribute [ext] Entry

namespace SymbolNode

theorem length_siblingIds (id : Nat) (forest : List SymbolNode) :
    (siblingIds id forest).length = forest.length := by
  induction forest generalizing id with
  | nil => rfl
  | cons node rest ih => rw [siblingIds, List.length_cons, List.length_cons, ih]

theorem infoOf_injective (containers node : Nat) : Function.Injective (infoOf containers node) := by
  intro a b h
  simp only [infoOf, SymbolInfo.mk.injEq] at h
  obtain ⟨hkind, haccessibility, horigin, harity, hparameters, hcontainer, -, hlocations⟩ := h
  have hsame := Option.map_injective (fun _ _ h => Nat.add_left_cancel h) hcontainer
  exact Entry.ext (Signature.ext hkind harity hparameters horigin hsame) haccessibility hlocations

mutual

theorem node_eq_of_rows (parent containers id handle : Nat) :
    ∀ (a b : SymbolNode) (rowsA rowsB : List IndexNode) (infosA infosB : List SymbolInfo),
      rows parent id handle a ++ rowsA = rows parent id handle b ++ rowsB →
      infos containers id handle a ++ infosA = infos containers id handle b ++ infosB →
      a = b ∧ rowsA = rowsB ∧ infosA = infosB
  | ⟨name, entries, children⟩, ⟨name', entries', children'⟩, rowsA, rowsB, infosA, infosB,
      hrows, hinfos => by
    rw [rows, rows, List.cons_append, List.cons_append, List.cons.injEq] at hrows
    obtain ⟨hrow, hrows⟩ := hrows
    simp only [IndexNode.mk.injEq] at hrow
    obtain ⟨rfl, -, hchildren, hsymbols⟩ := hrow
    have hlength : children.length = children'.length := by
      have h := congrArg List.length hchildren
      rwa [length_siblingIds, length_siblingIds] at h
    have hcount : entries.length = entries'.length := by
      have h := congrArg List.length hsymbols
      rwa [List.length_range', List.length_range'] at h
    rw [infos, infos, List.append_assoc, List.append_assoc] at hinfos
    obtain ⟨hown, hinfos⟩ := List.append_inj hinfos (by rw [List.length_map, List.length_map, hcount])
    have hentries : entries = entries' :=
      (List.map_injective_iff.2 (infoOf_injective containers id)) hown
    rw [← hcount] at hrows hinfos
    obtain ⟨rfl, hrest⟩ := forest_eq_of_rows id handle (id + 1) (handle + entries.length) children
      children' rowsA rowsB infosA infosB hlength hrows hinfos
    exact ⟨by rw [hentries], hrest⟩

/-- Siblings are recovered from their rows and symbols, whatever follows these. -/
theorem forest_eq_of_rows (parent containers id handle : Nat) :
    ∀ (a b : List SymbolNode) (rowsA rowsB : List IndexNode) (infosA infosB : List SymbolInfo),
      a.length = b.length →
      rowsAll parent id handle a ++ rowsA = rowsAll parent id handle b ++ rowsB →
      infosAll containers id handle a ++ infosA = infosAll containers id handle b ++ infosB →
      a = b ∧ rowsA = rowsB ∧ infosA = infosB
  | [], [], rowsA, rowsB, infosA, infosB, _, hrows, hinfos => ⟨rfl, hrows, hinfos⟩
  | a :: as, b :: bs, rowsA, rowsB, infosA, infosB, hlength, hrows, hinfos => by
    rw [rowsAll, rowsAll, List.append_assoc, List.append_assoc] at hrows
    rw [infosAll, infosAll, List.append_assoc, List.append_assoc] at hinfos
    obtain ⟨rfl, hrows, hinfos⟩ := node_eq_of_rows parent containers id handle a b _ _ _ _
      hrows hinfos
    obtain ⟨rfl, hrest⟩ := forest_eq_of_rows parent containers _ _ as bs rowsA rowsB infosA infosB
      (Nat.succ.inj hlength) hrows hinfos
    exact ⟨rfl, hrest⟩

end

end SymbolNode

theorem IndexTable.ofForest_injective : Function.Injective IndexTable.ofForest := by
  intro a b h
  simp only [ofForest, IndexTable.mk.injEq, Array.mk.injEq, List.cons.injEq, IndexNode.mk.injEq,
    true_and, and_true] at h
  obtain ⟨⟨hchildren, hrows⟩, hinfos, -⟩ := h
  have hlength : a.length = b.length := by
    have h := congrArg List.length hchildren
    rwa [SymbolNode.length_siblingIds, SymbolNode.length_siblingIds] at h
  refine (SymbolNode.forest_eq_of_rows 0 0 1 0 a b [] [] [] [] hlength ?_ ?_).1
  · rw [List.append_nil, List.append_nil, hrows]
  · rw [List.append_nil, List.append_nil, hinfos]

namespace SymbolIndex

/-- An index is told by its fingerprint and its table. -/
theorem eq_of_table_eq {a b : SymbolIndex} (hfingerprint : a.fingerprint = b.fingerprint)
    (htable : a.table = b.table) : a = b := by
  have hforest : a.forest = b.forest := by
    apply IndexTable.ofForest_injective
    rw [← a.table_eq, ← b.table_eq, htable]
  obtain ⟨fingerprint, forest, table, rfl⟩ := a
  obtain ⟨fingerprint', forest', table', rfl⟩ := b
  simp only at hfingerprint hforest
  subst hfingerprint hforest
  rfl

instance : LawfulBEq SymbolIndex where
  eq_of_beq {a b} h := by
    obtain ⟨hfingerprint, htable⟩ := Bool.and_eq_true_iff.1 h
    exact eq_of_table_eq (eq_of_beq hfingerprint) (eq_of_beq htable)
  rfl {a} := Bool.and_eq_true_iff.2 ⟨beq_self_eq_true _, beq_self_eq_true _⟩

end SymbolIndex

end SymbolSearch
