import SymbolSearch.Proofs.Distinct
import SymbolSearch.Proofs.Forest.Shape
import SymbolSearch.Proofs.Merge.Effective

/-!
# Levels of occurrences

The occurrences that are merged on one level, below a node whose symbols have known keys. The keys
of the nodes that they form surround the level below. A merged forest is therefore well-formed and
unambiguous.
-/

namespace SymbolSearch

/-- The keys of all symbols of a node, to which these names lead. The root has no symbols. -/
structure AreSurrounding (names : List String) (keys : List SymbolKey) : Prop where
  nodup : keys.Nodup
  names_eq : ∀ key ∈ keys, key.names = names
  root : keys = [] → names = []

/-- Occurrences inside symbols with the given keys. -/
structure AreLevel (around : List SymbolKey) (occurrences : List Occurrence) : Prop where
  named : ∀ o ∈ occurrences, o.name ≠ ""
  fits : ∀ o ∈ occurrences, o.signature.Fits around.length
  agrees : ∀ o ∈ occurrences, o.signature.Agrees (around.map (·.origin))

/-! ### Keys of signatures -/

theorem names_containerPath {names : List String} {around : List SymbolKey}
    (surrounding : AreSurrounding names around) {signature : Signature}
    (fits : signature.Fits around.length) :
    (containerPath around signature.container).map (·.name) = names := by
  cases hcontainer : signature.container with
  | none =>
    rw [Signature.Fits, hcontainer] at fits
    exact (surrounding.root (List.length_eq_zero_iff.1 fits)).symm
  | some position =>
    rw [Signature.Fits, hcontainer] at fits
    have hkey := List.getElem?_eq_getElem (show position < around.length from fits)
    simp only [containerPath, Option.bind_some, hkey, Option.map_some, Option.getD_some]
    exact surrounding.names_eq _ (List.getElem_mem fits)

theorem names_keyIn {names : List String} {around : List SymbolKey}
    (surrounding : AreSurrounding names around) {signature : Signature}
    (fits : signature.Fits around.length) (name : String) :
    (signature.keyIn around name).names = names ++ [name] := by
  rw [SymbolKey.names, Signature.keyIn, List.map_append, names_containerPath surrounding fits]
  rfl

theorem container_eq_of_path_eq {names : List String} {around : List SymbolKey}
    (surrounding : AreSurrounding names around) {a b : Signature}
    (hafits : a.Fits around.length) (hbfits : b.Fits around.length)
    (haagrees : a.Agrees (around.map (·.origin))) (hbagrees : b.Agrees (around.map (·.origin)))
    (horigin : a.origin = b.origin)
    (hpath : containerPath around a.container = containerPath around b.container) :
    a.container = b.container := by
  cases ha : a.container with
  | none =>
    cases hb : b.container with
    | none => rfl
    | some q =>
      rw [Signature.Fits, ha] at hafits
      rw [Signature.Fits, hb] at hbfits
      exact absurd (show q < around.length from hbfits) (by rw [hafits]; exact Nat.not_lt_zero _)
  | some p =>
    rw [Signature.Fits, ha] at hafits
    cases hb : b.container with
    | none =>
      rw [Signature.Fits, hb] at hbfits
      exact absurd (show p < around.length from hafits) (by rw [hbfits]; exact Nat.not_lt_zero _)
    | some q =>
      rw [Signature.Fits, hb] at hbfits
      have hp := List.getElem?_eq_getElem (show p < around.length from hafits)
      have hq := List.getElem?_eq_getElem (show q < around.length from hbfits)
      have hap := haagrees p ha
      have hbq := hbagrees q hb
      rw [List.getElem?_map, hp] at hap
      rw [List.getElem?_map, hq] at hbq
      simp only [containerPath, ha, hb, Option.bind_some, hp, hq, Option.map_some,
        Option.getD_some] at hpath
      have hsame : around[p] = around[q] := by
        have ho : around[p].origin = around[q].origin :=
          (Option.some.inj hap).trans (horigin.trans (Option.some.inj hbq).symm)
        cases hkp : around[p]
        cases hkq : around[q]
        simp_all
      rw [(surrounding.nodup.getElem_inj_iff).1 hsame]

/-- On one level, keys of one name tell signatures apart. -/
theorem keyIn_injective {names : List String} {around : List SymbolKey}
    (surrounding : AreSurrounding names around) {a b : Signature}
    (hafits : a.Fits around.length) (hbfits : b.Fits around.length)
    (haagrees : a.Agrees (around.map (·.origin))) (hbagrees : b.Agrees (around.map (·.origin)))
    {name : String} (h : a.keyIn around name = b.keyIn around name) : a = b := by
  simp only [Signature.keyIn, SymbolKey.mk.injEq] at h
  obtain ⟨hsegments, horigin⟩ := h
  obtain ⟨hpath, hlast⟩ := List.append_inj' hsegments rfl
  simp only [List.cons.injEq, KeySegment.mk.injEq, true_and, and_true] at hlast
  exact Signature.ext hlast.1 hlast.2.1 hlast.2.2 horigin
    (container_eq_of_path_eq surrounding hafits hbfits haagrees hbagrees horigin hpath)

/-! ### The level below a node -/

namespace Occurrence

variable {names : List String} {around : List SymbolKey} {occurrences : List Occurrence}

/-- The keys of the node that the occurrences of a name form. -/
def groupKeys (around : List SymbolKey) (name : String) (occurrences : List Occurrence) :
    List SymbolKey :=
  (signatures (named name occurrences)).map (·.keyIn around name)

theorem mem_named {name : String} {occurrence : Occurrence} :
    occurrence ∈ named name occurrences ↔ occurrence ∈ occurrences ∧ occurrence.name = name := by
  simp [named]

theorem exists_of_mem_signatures {group : List Occurrence} {signature : Signature}
    (h : signature ∈ signatures group) : ∃ o ∈ group, o.signature = signature :=
  List.mem_map.1 (List.mem_eraseDups.1 h)

theorem surrounding_groupKeys (surrounding : AreSurrounding names around)
    (level : AreLevel around occurrences) {name : String}
    (hname : name ∈ occurrences.map (·.name)) :
    AreSurrounding (names ++ [name]) (groupKeys around name occurrences) where
  nodup := by
    apply (Distinct.nodup_eraseDups _).map_on
    intro a ha b hb h
    obtain ⟨o, ho, rfl⟩ := exists_of_mem_signatures ha
    obtain ⟨o', ho', rfl⟩ := exists_of_mem_signatures hb
    have hmem := (mem_named.1 ho).1
    have hmem' := (mem_named.1 ho').1
    exact keyIn_injective surrounding (level.fits o hmem) (level.fits o' hmem')
      (level.agrees o hmem) (level.agrees o' hmem') h
  names_eq := by
    intro key hkey
    obtain ⟨signature, hsignature, rfl⟩ := List.mem_map.1 hkey
    obtain ⟨o, ho, rfl⟩ := exists_of_mem_signatures hsignature
    exact names_keyIn surrounding (level.fits o (mem_named.1 ho).1) name
  root := by
    intro hnil
    obtain ⟨o, ho, rfl⟩ := List.mem_map.1 hname
    have hmem : o.signature ∈ signatures (named o.name occurrences) :=
      List.mem_eraseDups.2 (List.mem_map_of_mem (mem_named.2 ⟨ho, rfl⟩))
    have hkey := List.mem_map_of_mem (f := (·.keyIn around o.name)) hmem
    rw [← groupKeys, hnil] at hkey
    cases hkey

theorem getElem?_groupKeys (around : List SymbolKey) {name : String} {occurrence : Occurrence}
    (h : occurrence ∈ named name occurrences) :
    (groupKeys around name occurrences)[(signatures (named name occurrences)).idxOf
      occurrence.signature]? = some (occurrence.key around) := by
  have hmem : occurrence.signature ∈ (named name occurrences).map (·.signature) :=
    List.mem_map_of_mem h
  have hlt := Distinct.idxOf_lt_length_eraseDups hmem
  rw [groupKeys, List.getElem?_map, signatures, List.getElem?_eq_getElem hlt,
    List.getElem_idxOf hlt, Option.map_some, key, (mem_named.1 h).2]

mutual

theorem name_ne_of_mem_exposed (origin : SymbolOrigin) :
    ∀ declaration : Declaration, ∀ d ∈ declaration.exposed origin, d.name ≠ ""
  | ⟨name, kind, accessibility, arity, parameters, range, children⟩, d, hd => by
    rw [Declaration.exposed] at hd
    split at hd
    · cases hd
    · split at hd
      · exact name_ne_of_mem_exposedAll origin children d hd
      · rename_i blank
        obtain rfl := List.mem_singleton.1 hd
        exact fun h => blank (Text.trim_eq_empty_iff.1 h)

theorem name_ne_of_mem_exposedAll (origin : SymbolOrigin) :
    ∀ declarations : List Declaration, ∀ d ∈ exposedAll origin declarations, d.name ≠ ""
  | declaration :: rest, d, hd => by
    rcases List.mem_append.1 hd with hd | hd
    · exact name_ne_of_mem_exposed origin declaration d hd
    · exact name_ne_of_mem_exposedAll origin rest d hd

end

theorem level_named (around : List SymbolKey) (name : String) (occurrences : List Occurrence) :
    AreLevel (groupKeys around name occurrences) (level (named name occurrences)) := by
  have inner {o : Occurrence} (ho : o ∈ level (named name occurrences)) :
      o.name ≠ "" ∧ ∃ position ∈ o.signature.container, ∃ key,
        (groupKeys around name occurrences)[position]? = some key
          ∧ key.origin = o.signature.origin := by
    obtain ⟨outer, houter, ho⟩ := List.mem_flatMap.1 ho
    obtain ⟨d, hd, rfl⟩ := List.mem_map.1 ho
    exact ⟨name_ne_of_mem_exposedAll _ _ d hd, _, rfl, _, getElem?_groupKeys around houter, rfl⟩
  constructor
  · exact fun o ho => (inner ho).1
  · intro o ho
    obtain ⟨-, position, hposition, key, hkey, -⟩ := inner ho
    rw [Signature.Fits, Option.mem_def.1 hposition]
    exact (List.getElem?_eq_some_iff.1 hkey).1
  · intro o ho p hp
    obtain ⟨-, position, hposition, key, hkey, horigin⟩ := inner ho
    obtain rfl := Option.some.inj (hp.symm.trans hposition)
    rw [List.getElem?_map, hkey, Option.map_some, horigin]

/-! ### Merged forests -/

/-- The node that the occurrences of a name form. -/
def nodeOf (occurrences : List Occurrence) (name : String) : SymbolNode :=
  ⟨name, entries (named name occurrences), merge (level (named name occurrences))⟩

theorem merge_eq (occurrences : List Occurrence) :
    merge occurrences = (occurrences.map (·.name)).eraseDups.map (nodeOf occurrences) := by
  rw [merge]
  simp [nodeOf, List.map_attach_eq_pmap]

theorem exists_of_mem_merge {node : SymbolNode} (h : node ∈ merge occurrences) :
    ∃ name ∈ occurrences.map (·.name), node = nodeOf occurrences name := by
  rw [merge_eq] at h
  obtain ⟨name, hname, rfl⟩ := List.mem_map.1 h
  exact ⟨name, List.mem_eraseDups.1 hname, rfl⟩

theorem map_signature_entries (group : List Occurrence) :
    (entries group).map (·.signature) = signatures group := by
  simp [entries, entryOf, Function.comp_def]

theorem length_groupKeys (around : List SymbolKey) (occurrences : List Occurrence)
    (name : String) :
    (groupKeys around name occurrences).length = (entries (named name occurrences)).length := by
  simp [groupKeys, entries]

theorem map_origin_groupKeys (around : List SymbolKey) (occurrences : List Occurrence)
    (name : String) :
    (groupKeys around name occurrences).map (·.origin)
      = (entries (named name occurrences)).map (·.signature.origin) := by
  simp [groupKeys, entries, entryOf, Signature.keyIn, Function.comp_def]

theorem map_name_merge (occurrences : List Occurrence) :
    (merge occurrences).map (·.name) = (occurrences.map (·.name)).eraseDups := by
  simp [merge_eq, nodeOf, Function.comp_def]

/-- What holds of an occurrence of each signature holds of each signature. -/
theorem forall_signature {name : String} {holds : Signature → Prop}
    (h : ∀ o ∈ occurrences, holds o.signature) :
    ∀ entry ∈ entries (named name occurrences), holds entry.signature := by
  intro entry hentry
  obtain ⟨o, ho, hsignature⟩ := exists_of_mem_signatures
    (map_signature_entries (named name occurrences) ▸ List.mem_map_of_mem hentry)
  rw [← hsignature]
  exact h o (mem_named.1 ho).1

theorem entries_ne_nil {name : String} (hname : name ∈ occurrences.map (·.name)) :
    entries (named name occurrences) ≠ [] := by
  obtain ⟨o, ho, rfl⟩ := List.mem_map.1 hname
  have hmem : o.signature ∈ signatures (named o.name occurrences) :=
    List.mem_eraseDups.2 (List.mem_map_of_mem (mem_named.2 ⟨ho, rfl⟩))
  exact List.ne_nil_of_mem (List.mem_map_of_mem hmem)

theorem wellFormed_merge (level : AreLevel around occurrences) :
    SymbolNode.WellFormedAll around.length (merge occurrences) := by
  induction occurrences using merge.induct generalizing around with
  | case1 occurrences ih =>
    apply SymbolNode.wellFormedAll_of_forall
    intro node hnode
    obtain ⟨name, hname, rfl⟩ := exists_of_mem_merge hnode
    refine ⟨?_, entries_ne_nil hname, forall_signature level.fits, ?_⟩
    · obtain ⟨o, ho, rfl⟩ := List.mem_map.1 hname
      exact level.named o ho
    · rw [← length_groupKeys around]
      exact ih name (List.mem_eraseDups.2 hname) (level_named _ name occurrences)

theorem unambiguous_merge (level : AreLevel around occurrences) :
    SymbolNode.UnambiguousAll (around.map (·.origin)) (merge occurrences) := by
  induction occurrences using merge.induct generalizing around with
  | case1 occurrences ih =>
    refine SymbolNode.unambiguousAll_of_forall ?_ fun node hnode => ?_
    · rw [map_name_merge]
      exact Distinct.nodup_eraseDups _
    · obtain ⟨name, hname, rfl⟩ := exists_of_mem_merge hnode
      refine ⟨?_, forall_signature level.agrees, ?_⟩
      · rw [map_signature_entries]
        exact Distinct.nodup_eraseDups _
      · rw [← map_origin_groupKeys around]
        exact ih name (List.mem_eraseDups.2 hname) (level_named _ name occurrences)

end Occurrence

/-! ### Projects -/

namespace Project

theorem level_occurrences (project : Project) : AreLevel [] project.occurrences := by
  have top {o : Occurrence} (ho : o ∈ project.occurrences) :
      o.name ≠ "" ∧ o.signature.container = none := by
    rcases List.mem_append.1 ho with ho | ho
    · obtain ⟨document, -, ho⟩ := List.mem_flatMap.1 ho
      obtain ⟨d, hd, rfl⟩ := List.mem_map.1 ho
      exact ⟨Occurrence.name_ne_of_mem_exposedAll _ _ d hd, rfl⟩
    · obtain ⟨reference, -, ho⟩ := List.mem_flatMap.1 ho
      obtain ⟨d, hd, rfl⟩ := List.mem_map.1 ho
      exact ⟨Occurrence.name_ne_of_mem_exposedAll _ _ d hd, rfl⟩
  constructor
  · exact fun o ho => (top ho).1
  · intro o ho
    rw [Signature.Fits, (top ho).2]
    rfl
  · intro o ho position hposition
    rw [(top ho).2] at hposition
    cases hposition

end Project

namespace SymbolIndex

theorem wellFormed_build (project : Project) : (build project).WellFormed :=
  Occurrence.wellFormed_merge project.level_occurrences

theorem unambiguous_build (project : Project) : (build project).Unambiguous :=
  Occurrence.unambiguous_merge project.level_occurrences

end SymbolIndex

end SymbolSearch
