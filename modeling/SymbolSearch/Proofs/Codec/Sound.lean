import SymbolSearch.Index.Codec
import SymbolSearch.Proofs.Codec.Reader
import SymbolSearch.Proofs.Forest.Keys

/-!
# Decoded indexes

Whatever bytes an index is read from, its forest is well-formed: every node has a name and symbols,
and every symbol inside a node is inside one of the symbols of that node.
-/

namespace SymbolSearch.IndexCodec

open Bytes.Reader

/-- A forest is read node by node, unless one is missing or empty. -/
theorem readForest_succ (enclosing : Enclosing) (fuel count : Nat) (progress : Progress) :
    readForest enclosing (fuel + 1) (count + 1) progress =
      if progress.nodes = 0 then fail .tooFewNodes
      else readText >>= fun name => readCount >>= fun children => readCount >>= fun symbols =>
        if name.isEmpty ∨ symbols = 0 then fail .emptyNode
        else readEntries enclosing progress.symbols symbols >>= fun entries =>
          readForest ⟨progress.symbols, symbols⟩ fuel children
              ⟨progress.nodes - 1, progress.symbols + symbols⟩ >>= fun inside =>
            readForest enclosing fuel count inside.2 >>= fun siblings =>
              pure (⟨name, entries, inside.1⟩ :: siblings.1, siblings.2) := by
  rw [readForest]
  rfl

theorem returns_readContainer (enclosing : Enclosing) (handle : Nat) :
    Returns (readContainer enclosing handle) fun container => ∀ signature : Signature,
      signature.container = container → signature.Fits enclosing.count := by
  refine returns_bind fun parent => ?_
  split
  · split
    · rename_i hcount
      refine returns_pure fun signature hcontainer => ?_
      rw [Signature.Fits, hcontainer]
      exact hcount
    · exact returns_fail _
  · split
    · exact returns_fail _
    · split
      · rename_i hrange
        refine returns_pure fun signature hcontainer => ?_
        rw [Signature.Fits, hcontainer]
        change parent - enclosing.first < enclosing.count
        omega
      · exact returns_fail _

theorem returns_readEntry (enclosing : Enclosing) (handle : Nat) :
    Returns (readEntry enclosing handle) fun entry => entry.signature.Fits enclosing.count := by
  refine returns_bind fun kind => ?_
  refine returns_bind fun accessibility => ?_
  refine returns_bind fun origin => ?_
  refine returns_bind fun arity => ?_
  refine returns_bind fun count => ?_
  refine returns_bind fun parameters => ?_
  refine (returns_readContainer enclosing handle).bind fun container hcontainer => ?_
  refine returns_bind fun count => ?_
  refine returns_bind fun locations => ?_
  exact returns_pure (hcontainer _ rfl)

theorem returns_readEntries (enclosing : Enclosing) (handle count : Nat) :
    Returns (readEntries enclosing handle count) fun entries =>
      entries.length = count ∧ ∀ entry ∈ entries, entry.signature.Fits enclosing.count := by
  induction count generalizing handle with
  | zero => exact returns_pure ⟨rfl, fun entry hentry => by cases hentry⟩
  | succ count ih =>
    refine (returns_readEntry enclosing handle).bind fun entry hentry => ?_
    refine (ih (handle + 1)).bind fun entries hentries => ?_
    refine returns_pure ⟨by rw [List.length_cons, hentries.1], fun other hother => ?_⟩
    rcases List.mem_cons.1 hother with rfl | hother
    · exact hentry
    · exact hentries.2 other hother

/-- The siblings that are read inside a node are well-formed inside it. -/
theorem returns_readForest (enclosing : Enclosing) (fuel count : Nat) (progress : Progress) :
    Returns (readForest enclosing fuel count progress) fun read =>
      SymbolNode.WellFormedAll enclosing.count read.1 := by
  induction fuel generalizing enclosing count progress with
  | zero =>
    cases count with
    | zero => exact returns_pure trivial
    | succ count => exact returns_fail _
  | succ fuel ih =>
    cases count with
    | zero => exact returns_pure trivial
    | succ count =>
      rw [readForest_succ]
      split
      · exact returns_fail _
      · refine returns_bind fun name => ?_
        refine returns_bind fun children => ?_
        refine returns_bind fun symbols => ?_
        split
        · exact returns_fail _
        · rename_i hnode
          refine (returns_readEntries _ _ _).bind fun entries hentries => ?_
          refine (ih _ _ _).bind fun inside hinside => ?_
          refine (ih _ _ _).bind fun siblings hsiblings => ?_
          refine returns_pure ⟨⟨?_, ?_, hentries.2, ?_⟩, hsiblings⟩
          · exact fun hname => hnode (.inl (String.isEmpty_iff.2 hname))
          · intro hnil
            rw [hnil] at hentries
            exact hnode (.inr hentries.1.symm)
          · rw [hentries.1]
            exact hinside

theorem readIndex_eq : readIndex =
    Bytes.Reader.take .truncated 4 >>= fun mark =>
      if mark ≠ magic then Bytes.Reader.fail .badMagic
      else readWord >>= fun version =>
        if version ≠ indexVersion then Bytes.Reader.fail (.unsupportedVersion version)
        else Bytes.Reader.take .truncated 32 >>= fun digest => readCount >>= fun nodes =>
          if nodes = 0 then fail .missingRoot
          else readText >>= fun name => readCount >>= fun children => readCount >>= fun symbols =>
            if ¬ name.isEmpty ∨ symbols ≠ 0 then fail .rootNotEmpty
            else readForest ⟨0, 0⟩ nodes children ⟨nodes - 1, 0⟩ >>= fun read =>
              if read.2.nodes ≠ 0 then fail .tooManyNodes
              else match Fingerprint.ofBytes? digest with
                | some fingerprint => pure { fingerprint, forest := read.1 }
                | none => Bytes.Reader.fail .truncated := rfl

theorem returns_readIndex : Returns readIndex SymbolIndex.WellFormed := by
  rw [readIndex_eq]
  refine returns_bind fun mark => ?_
  split
  · exact returns_fail _
  refine returns_bind fun version => ?_
  split
  · exact returns_fail _
  refine returns_bind fun digest => ?_
  refine returns_bind fun nodes => ?_
  split
  · exact returns_fail _
  refine returns_bind fun name => ?_
  refine returns_bind fun children => ?_
  refine returns_bind fun symbols => ?_
  split
  · exact returns_fail _
  refine (returns_readForest _ _ _ _).bind fun read hread => ?_
  split
  · exact returns_fail _
  split
  · exact returns_pure hread
  · exact returns_fail _

theorem decode_eq_ok {bytes : Bytes} {index : SymbolIndex} (h : decode bytes = .ok index) :
    readIndex bytes = .ok (index, []) := by
  rw [decode] at h
  split at h
  · cases h
    assumption
  · cases h
  · cases h

/-- Every index that is accepted is well-formed. -/
theorem wellFormed_of_decode {bytes : Bytes} {index : SymbolIndex}
    (h : decode bytes = .ok index) : index.WellFormed :=
  returns_readIndex bytes index [] (decode_eq_ok h)

end SymbolSearch.IndexCodec
