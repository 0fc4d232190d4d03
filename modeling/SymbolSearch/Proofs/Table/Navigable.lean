import SymbolSearch.Proofs.Codec.RoundTrip
import SymbolSearch.Proofs.Table.Lookup

/-!
# Navigable indexes

The index of a project and an index that was read from bytes, whatever they are, are trees in which
nothing is looked up out of range. The key of a symbol has one segment for each step between its
node and the root.
-/

namespace SymbolSearch.SymbolIndex

variable {index : SymbolIndex}

/-- The number of steps from a node to the root. -/
inductive Depth (index : SymbolIndex) : Nat → Nat → Prop
  | root : Depth index 0 0
  | inside {id parent depth : Nat} :
    index.parentOf? id = some parent → Depth index parent depth → Depth index id (depth + 1)

theorem Depth.unique {id depth other : Nat} (h : index.Depth id depth)
    (hother : index.Depth id other) : depth = other := by
  have hroot : index.parentOf? 0 = none := by
    rw [parentOf?, index.node?_zero]
    rfl
  induction h generalizing other with
  | root =>
    cases hother with
    | root => rfl
    | inside hparent _ =>
      rw [hroot] at hparent
      cases hparent
  | inside hparent _ ih =>
    cases hother with
    | root =>
      rw [hroot] at hparent
      cases hparent
    | inside hparent' houter =>
      obtain rfl := Option.some.inj (hparent.symm.trans hparent')
      rw [ih houter]

/-- By induction on the handle: a container has a smaller one and stands on the parent of the node. -/
theorem depth_path (wellFormed : index.WellFormed) {handle : Nat} {info : SymbolInfo}
    (hinfo : index.info? handle = some info) :
    index.Depth info.node (index.path handle).length := by
  have tree := isTree_of_wellFormed wellFormed
  induction handle using Nat.strongRecOn generalizing info with
  | ind handle ih =>
    rw [path_eq wellFormed hinfo, List.length_append, List.length_singleton]
    by_cases htop : index.parentOf? info.node = some 0
    · rw [tree.top handle info hinfo htop]
      exact .inside htop .root
    · obtain ⟨parent, outer, hparent, hlt, houter, hmem⟩ := tree.nested handle info hinfo htop
      obtain ⟨container, hcontainer, rfl⟩ := exists_info?_of_mem_symbolsOf hmem
      rw [hparent]
      exact .inside houter (ih parent hlt hcontainer)

/-- A tree in which no look-up meets a number out of range. -/
structure Navigable (index : SymbolIndex) : Prop extends index.IsTree where
  find : ∀ query options, Checked.find index query options = some (index.find query options)
  name : ∀ handle, Checked.name index handle = some (index.name? handle)
  key : ∀ handle, Checked.key index handle = some (index.key? handle)
  resolve : ∀ key, Checked.resolveKey index key = some (index.resolveKey key)
  depth : ∀ handle info, index.info? handle = some info → ∃ key, index.key? handle = some key
    ∧ ∀ depth, index.Depth info.node depth ↔ depth = key.segments.length

theorem navigable_of_wellFormed (wellFormed : index.WellFormed) : index.Navigable where
  toIsTree := isTree_of_wellFormed wellFormed
  find := Checked.find_eq index
  name := Checked.name_eq index
  key := Checked.key_eq wellFormed
  resolve := Checked.resolveKey_eq index
  depth := by
    intro handle info hinfo
    refine ⟨_, key?_eq_some_iff.2 ⟨info, hinfo, rfl⟩, fun depth => ?_⟩
    have hdepth := depth_path wellFormed hinfo
    constructor
    · intro h
      exact h.unique hdepth
    · rintro rfl
      exact hdepth

/-- Every index that exists is navigable, whether it was built or read from bytes. -/
theorem navigable_built_or_decoded :
    (∀ project, (build project).Navigable)
    ∧ ∀ bytes index, IndexCodec.decode bytes = .ok index → index.Navigable := by
  constructor
  · intro project
    exact navigable_of_wellFormed (wellFormed_build project)
  · intro bytes index hdecode
    exact navigable_of_wellFormed (IndexCodec.wellFormed_of_decode hdecode)

/-- A forged index with a class inside the first of two classes of one name. -/
theorem navigable_forged :
    let symbol (container : Option Nat) : Entry :=
      ⟨⟨.classDecl, 0, [], .source, container⟩, .publicAccess, []⟩
    let index : SymbolIndex :=
      { fingerprint := ⟨.replicate 32 0⟩
        forest := [⟨"A", [symbol none], [⟨"B", [symbol (some 0)], []⟩]⟩, ⟨"A", [symbol none], []⟩] }
    IndexCodec.decode (IndexCodec.encode index) = .ok index ∧ index.Navigable
      ∧ index.table.nodes.toList.map (·.children) = [[1, 3], [2], [], []]
      ∧ (index.key? 1).map (·.names) = some ["A", "B"] := by
  intro symbol index
  have inner : SymbolNode.WellFormed 1 ⟨"B", [symbol (some 0)], []⟩ := by
    refine ⟨by decide, List.cons_ne_nil _ _, fun entry hentry => ?_, trivial⟩
    obtain rfl := List.mem_singleton.1 hentry
    exact Nat.zero_lt_one
  have node (children : List SymbolNode) (h : SymbolNode.WellFormedAll 1 children) :
      SymbolNode.WellFormed 0 ⟨"A", [symbol none], children⟩ := by
    refine ⟨by decide, List.cons_ne_nil _ _, fun entry hentry => ?_, h⟩
    obtain rfl := List.mem_singleton.1 hentry
    rfl
  have wellFormed : index.WellFormed := ⟨node _ ⟨inner, trivial⟩, node [] trivial, trivial⟩
  have storable : index.Storable := by decide +kernel
  have hdecode := IndexCodec.decode_encode wellFormed storable
  exact ⟨hdecode, navigable_built_or_decoded.2 _ index hdecode, by decide +kernel,
    by decide +kernel⟩

end SymbolSearch.SymbolIndex
