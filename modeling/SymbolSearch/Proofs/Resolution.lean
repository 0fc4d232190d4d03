import SymbolSearch.Proofs.Codec.RoundTrip

/-!
# Resolution of keys

In an index that was built from a project, keys and handles determine each other. In an index that
was read from bytes, whatever they are, a key resolves to no symbol but one that has it.
-/

namespace SymbolSearch.SymbolIndex

/-- What a key resolves to has that key, and in the index of a project the converse holds as well. -/
theorem keys_and_handles :
    (∀ (project : Project) (key : SymbolKey) (handle : Nat),
      (build project).resolveKey key = some handle ↔ (build project).key? handle = some key)
    ∧ (∀ (project : Project), ∀ handle < (build project).symbolCount, ∃ key,
      (build project).key? handle = some key ∧ (build project).resolveKey key = some handle)
    ∧ (∀ (project : Project) (a b : Nat) (key : SymbolKey),
      (build project).key? a = some key → (build project).key? b = some key → a = b)
    ∧ ∀ (bytes : Bytes) (index : SymbolIndex), IndexCodec.decode bytes = .ok index →
      ∀ (key : SymbolKey) (handle : Nat),
        index.resolveKey key = some handle → index.key? handle = some key := by
  have built (project : Project) (key : SymbolKey) (handle : Nat) :
      (build project).resolveKey key = some handle ↔ (build project).key? handle = some key :=
    resolve_eq_some_iff (wellFormed_build project) (unambiguous_build project)
  refine ⟨built, ?_, ?_, ?_⟩
  · intro project handle hhandle
    obtain ⟨key, hkey⟩ := exists_key?_iff.2 hhandle
    exact ⟨key, hkey, (built project key handle).2 hkey⟩
  · intro project a b key ha hb
    rw [← built] at ha hb
    exact Option.some.inj (ha.symm.trans hb)
  · intro bytes index hdecode key handle hresolve
    exact key?_of_resolve (IndexCodec.wellFormed_of_decode hdecode) hresolve

/-- A forged index with two classes of one name, the second of which no key resolves to. -/
theorem resolveKey_of_forged :
    let symbol : Entry := ⟨⟨.classDecl, 0, [], .source, none⟩, .publicAccess, []⟩
    let index : SymbolIndex :=
      { fingerprint := ⟨.replicate 32 0⟩, forest := [⟨"A", [symbol], []⟩, ⟨"A", [symbol], []⟩] }
    let key : SymbolKey := ⟨[⟨.classDecl, "A", 0, []⟩], .source⟩
    IndexCodec.decode (IndexCodec.encode index) = .ok index ∧ index.resolveKey key = some 0
      ∧ index.key? 0 = some key ∧ index.key? 1 = some key := by
  intro symbol index key
  have node : SymbolNode.WellFormed 0 ⟨"A", [symbol], []⟩ := by
    refine ⟨by decide, List.cons_ne_nil _ _, fun entry hentry => ?_, trivial⟩
    obtain rfl := List.mem_singleton.1 hentry
    rfl
  have wellFormed : index.WellFormed := ⟨node, node, trivial⟩
  have storable : index.Storable := by decide +kernel
  have hdecode := IndexCodec.decode_encode wellFormed storable
  have hresolve : index.resolveKey key = some 0 := by decide +kernel
  exact ⟨hdecode, hresolve, keys_and_handles.2.2.2 _ index hdecode key 0 hresolve,
    by decide +kernel⟩

end SymbolSearch.SymbolIndex
