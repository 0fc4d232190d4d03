import SymbolSearch.Proofs.Codec.Sound
import SymbolSearch.Proofs.Merge.Level
import SymbolSearch.Project.Sample

/-!
# Stored indexes

An index is recovered from its bytes if it is well-formed and no number in it exceeds its width. The
numbers of nodes and the handles, which are not stored, come out as they were, since both the writer
and the reader go through the places in order.
-/

namespace SymbolSearch

/-- All numbers of a symbol fit into four bytes. -/
structure SymbolInfo.Storable (info : SymbolInfo) : Prop where
  parameters : info.parameters.length < Bytes.limit 4
  parameter : ∀ text ∈ info.parameters, text.utf8ByteSize < Bytes.limit 4
  locations : info.locations.length < Bytes.limit 4

/-- All numbers of an index fit into four bytes, and no handle is mistaken for a missing parent. -/
structure SymbolIndex.Storable (index : SymbolIndex) : Prop where
  nodes : index.nodeCount < Bytes.limit 4
  symbols : index.symbolCount < IndexCodec.noParent
  names : ∀ row ∈ index.table.nodes, row.name.utf8ByteSize < Bytes.limit 4
  infos : ∀ info ∈ index.table.symbols, info.Storable

instance (info : SymbolInfo) : Decidable info.Storable :=
  decidable_of_iff (info.parameters.length < Bytes.limit 4
    ∧ (∀ text ∈ info.parameters, text.utf8ByteSize < Bytes.limit 4)
    ∧ info.locations.length < Bytes.limit 4)
    ⟨fun h => ⟨h.1, h.2.1, h.2.2⟩, fun h => ⟨h.parameters, h.parameter, h.locations⟩⟩

instance (index : SymbolIndex) : Decidable index.Storable :=
  decidable_of_iff (index.nodeCount < Bytes.limit 4 ∧ index.symbolCount < IndexCodec.noParent
    ∧ (∀ row ∈ index.table.nodes, row.name.utf8ByteSize < Bytes.limit 4)
    ∧ ∀ info ∈ index.table.symbols, info.Storable)
    ⟨fun h => ⟨h.1, h.2.1, h.2.2.1, h.2.2.2⟩,
      fun h => ⟨h.nodes, h.symbols, h.names, h.infos⟩⟩

/-- All numbers of the node and the symbols at a place fit into four bytes. -/
structure Place.Storable (place : Place) : Prop where
  name : place.node.name.utf8ByteSize < Bytes.limit 4
  infos : ∀ info ∈ place.infos, info.Storable

namespace IndexCodec

open Bytes.Reader

/-! ### Symbols -/

theorem reads_readCount {n : Nat} (h : n < Bytes.limit 4) : Reads readCount (Bytes.ofCount n) n :=
  reads_number _ h

theorem reads_readWord (word : UInt32) : Reads readWord (Bytes.ofUInt32 word) word :=
  reads_uint32 _ word

theorem reads_readText {text : String} (h : text.utf8ByteSize < Bytes.limit 4) :
    Reads readText (textBytes text) text := by
  rw [← Bytes.length_ofString] at h
  refine (reads_readCount h).bind ((reads_take _ rfl).last ?_)
  rw [Text.utf8?_ofString]
  exact reads_pure text

theorem reads_readTag {α : Type} (what : Corruption) {ofTag? : Nat → Option α} {tag : Nat} {a : α}
    (htag : tag < Bytes.limit 1) (h : ofTag? tag = some a) :
    Reads (readTag what ofTag?) (Bytes.littleEndian 1 tag) a := by
  refine (reads_number _ htag).last ?_
  rw [h]
  exact reads_pure a

theorem reads_readLocation (location : Location) :
    Reads readLocation (locationBytes location) location := by
  have hrange : TextRange.ofBounds? location.range.start location.range.stop
      = some location.range := dif_pos location.range.ordered
  rw [locationBytes, List.append_assoc]
  refine (reads_readWord _).bind ((reads_readWord _).bind ((reads_readWord _).last ?_))
  rw [hrange]
  exact reads_pure location

theorem reads_readContainer {enclosing : Enclosing} {handle : Nat} {signature : Signature}
    (hhandle : enclosing.first + enclosing.count ≤ handle) (hbound : handle < noParent)
    (fits : signature.Fits enclosing.count) :
    Reads (readContainer enclosing handle)
      (Bytes.ofCount ((signature.container.map (enclosing.first + ·)).getD noParent))
      signature.container := by
  have hmax : noParent < Bytes.limit 4 := by decide
  cases hcontainer : signature.container with
  | none =>
    rw [Signature.Fits, hcontainer] at fits
    refine (reads_readCount hmax).last ?_
    rw [if_pos rfl, if_pos fits]
    exact reads_pure none
  | some position =>
    rw [Signature.Fits, hcontainer] at fits
    have hposition : position < enclosing.count := fits
    refine (reads_readCount (show enclosing.first + position < Bytes.limit 4 by omega)).last ?_
    rw [if_neg (by omega), if_neg (by omega), if_pos (by omega), Nat.add_sub_cancel_left]
    exact reads_pure (some position)

theorem reads_readEntry {enclosing : Enclosing} {handle node : Nat} {entry : Entry}
    (hhandle : enclosing.first + enclosing.count ≤ handle) (hbound : handle < noParent)
    (fits : entry.signature.Fits enclosing.count)
    (storable : (SymbolNode.infoOf enclosing.first node entry).Storable) :
    Reads (readEntry enclosing handle) (entryBytes enclosing.first entry) entry := by
  have hkind : entry.signature.kind.tag < Bytes.limit 1 := by
    cases entry.signature.kind <;> decide
  have haccessibility : entry.accessibility.tag < Bytes.limit 1 := by
    cases entry.accessibility <;> decide
  have horigin : entry.signature.origin.tag < Bytes.limit 1 := by
    cases entry.signature.origin <;> decide
  simp only [entryBytes, List.append_assoc]
  refine (reads_readTag _ hkind (SymbolKind.ofTag?_tag _)).bind ?_
  refine (reads_readTag _ haccessibility (Accessibility.ofTag?_tag _)).bind ?_
  refine (reads_readTag _ horigin (SymbolOrigin.ofTag?_tag _)).bind ?_
  refine (reads_readWord _).bind ?_
  refine (reads_readCount storable.parameters).bind ?_
  refine (reads_times fun text h => reads_readText (storable.parameter text h)).bind ?_
  refine (reads_readContainer hhandle hbound fits).bind ?_
  refine (reads_readCount storable.locations).bind ?_
  exact (reads_times fun location _ => reads_readLocation location).last (reads_pure entry)

theorem reads_readEntries {enclosing : Enclosing} {handle node : Nat} {entries : List Entry}
    (hhandle : enclosing.first + enclosing.count ≤ handle)
    (hbound : handle + entries.length ≤ noParent)
    (fits : ∀ entry ∈ entries, entry.signature.Fits enclosing.count)
    (storable : ∀ entry ∈ entries, (SymbolNode.infoOf enclosing.first node entry).Storable) :
    Reads (readEntries enclosing handle entries.length)
      (entries.flatMap (entryBytes enclosing.first)) entries := by
  induction entries generalizing handle with
  | nil => exact reads_pure []
  | cons entry entries ih =>
    rw [List.length_cons] at hbound
    have hentry := reads_readEntry hhandle (by omega) (fits entry List.mem_cons_self)
      (storable entry List.mem_cons_self)
    have hentries : Reads (readEntries enclosing (handle + 1) entries.length) _ entries :=
      ih (by omega) (by omega) (fun other h => fits other (List.mem_cons_of_mem _ h))
        fun other h => storable other (List.mem_cons_of_mem _ h)
    exact hentry.bind (hentries.last (reads_pure (entry :: entries)))

/-! ### Forests -/

theorem length_le_nodeCountAll (forest : List SymbolNode) :
    forest.length ≤ SymbolNode.nodeCountAll forest := by
  induction forest with
  | nil => exact Nat.le_refl 0
  | cons node rest ih =>
    obtain ⟨name, entries, children⟩ := node
    rw [List.length_cons, SymbolNode.nodeCountAll, SymbolNode.nodeCount]
    omega

theorem reads_headBytes {β : Type} {next : String → Nat → Nat → Reader β} {name : String}
    {children symbols : Nat} {bytes : Bytes} {b : β} (hname : name.utf8ByteSize < Bytes.limit 4)
    (hchildren : children < Bytes.limit 4) (hsymbols : symbols < Bytes.limit 4)
    (h : Reads (next name children symbols) bytes b) :
    Reads (readText >>= fun name => readCount >>= fun children => readCount >>= fun symbols =>
      next name children symbols) (headBytes name children symbols ++ bytes) b := by
  rw [headBytes, List.append_assoc, List.append_assoc]
  exact (reads_readText hname).bind ((reads_readCount hchildren).bind
    ((reads_readCount hsymbols).bind h))

/-- The siblings of a level, with all below them, are recovered along with their places. -/
theorem reads_readForest : ∀ (forest : List SymbolNode) (around : Surroundings)
    (count fuel id handle nodes : Nat),
    SymbolNode.nodeCountAll forest ≤ fuel → SymbolNode.nodeCountAll forest ≤ nodes →
    nodes < Bytes.limit 4 → around.first + count ≤ handle →
    handle + SymbolNode.symbolCountAll forest < noParent →
    SymbolNode.WellFormedAll count forest →
    (∀ place ∈ SymbolNode.placesAll around id handle forest, place.Storable) →
    Reads (readForest ⟨around.first, count⟩ fuel forest.length ⟨nodes, handle⟩)
      (forestBytes around.first handle forest)
      (forest, ⟨nodes - SymbolNode.nodeCountAll forest,
        handle + SymbolNode.symbolCountAll forest⟩)
  | [], around, count, fuel, id, handle, nodes, _, _, _, _, _, _, _ => by
    cases fuel <;> exact reads_pure _
  | ⟨name, entries, children⟩ :: rest, around, count, fuel, id, handle, nodes, hfuel, hnodes,
      hlimit, hhandle, hbound, wellFormed, storable => by
    have hmax : noParent < Bytes.limit 4 := by decide
    obtain ⟨⟨hname, hentries, fits, hchildren⟩, hrest⟩ := wellFormed
    have hhere := storable ⟨around, id, handle, ⟨name, entries, children⟩⟩
      (List.mem_append_left _ List.mem_cons_self)
    have hlength := length_le_nodeCountAll children
    simp only [SymbolNode.nodeCountAll, SymbolNode.nodeCount, SymbolNode.symbolCountAll,
      SymbolNode.symbolCount] at hfuel hnodes hbound
    obtain ⟨fuel, rfl⟩ : ∃ smaller, fuel = smaller + 1 := ⟨fuel - 1, by omega⟩
    have infos : ∀ entry ∈ entries, (SymbolNode.infoOf around.first id entry).Storable :=
      fun entry hentry => hhere.infos _ (List.mem_map_of_mem hentry)
    have own : Reads (readEntries ⟨around.first, count⟩ handle entries.length) _ entries :=
      reads_readEntries hhandle (by omega) fits infos
    have below := reads_readForest children ⟨id, handle, around.names ++ [name], _⟩
      entries.length fuel (id + 1) (handle + entries.length) (nodes - 1) (by omega) (by omega)
      (by omega) (Nat.le_refl _) (by omega) hchildren
      fun place hplace => storable place (List.mem_append_left _ (List.mem_cons_of_mem _ hplace))
    have after := reads_readForest rest around count fuel _
      (handle + (entries.length + SymbolNode.symbolCountAll children))
      (nodes - 1 - SymbolNode.nodeCountAll children) (by omega) (by omega) (by omega) (by omega)
      (by omega) hrest fun place hplace => storable place (List.mem_append_right _ hplace)
    have hnonzero : nodes ≠ 0 := by omega
    rw [List.length_cons, readForest_succ, if_neg hnonzero, forestBytes, nodeBytes,
      List.append_assoc, List.append_assoc]
    refine reads_headBytes hhere.name (by omega) (by omega) ?_
    rw [if_neg]
    · rw [Nat.add_assoc] at below
      refine own.bind (below.bind (after.last ?_))
      have hprogress :
          (⟨nodes - 1 - SymbolNode.nodeCountAll children - SymbolNode.nodeCountAll rest,
          handle + (entries.length + SymbolNode.symbolCountAll children)
            + SymbolNode.symbolCountAll rest⟩ : Progress)
          = ⟨nodes - SymbolNode.nodeCountAll (⟨name, entries, children⟩ :: rest),
            handle + SymbolNode.symbolCountAll (⟨name, entries, children⟩ :: rest)⟩ := by
        simp only [SymbolNode.nodeCountAll, SymbolNode.nodeCount, SymbolNode.symbolCountAll,
          SymbolNode.symbolCount, Progress.mk.injEq]
        omega
      rw [← hprogress]
      exact reads_pure _
    · rintro (h | h)
      · exact hname (String.isEmpty_iff.1 h)
      · exact hentries (List.length_eq_zero_iff.1 h)

end IndexCodec

/-! ### Indexes -/

namespace SymbolIndex

variable {index : SymbolIndex}

theorem storable_of_mem_places (storable : index.Storable) :
    ∀ place ∈ index.places, place.Storable := by
  intro place hplace
  constructor
  · exact storable.names _ (Array.mem_of_getElem? (index.node?_of_mem_places hplace))
  · intro info hinfo
    obtain ⟨entry, hentry, rfl⟩ := List.mem_map.1 hinfo
    obtain ⟨k, hk⟩ := List.getElem?_of_mem hentry
    exact storable.infos _ (Array.mem_of_getElem? (index.info?_of_mem_places hplace hk))

/-- An index is told by its fingerprint and its forest. -/
theorem eq_of_forest (index : SymbolIndex) :
    ({ fingerprint := index.fingerprint, forest := index.forest } : SymbolIndex) = index := by
  obtain ⟨fingerprint, forest, table, rfl⟩ := index
  rfl

end SymbolIndex

namespace IndexCodec

open Bytes.Reader

variable {index : SymbolIndex}

theorem reads_readIndex (wellFormed : index.WellFormed) (storable : index.Storable) :
    Reads readIndex (encode index) index := by
  have hnodes := storable.nodes
  have hsymbols := storable.symbols
  rw [index.nodeCount_eq] at hnodes
  rw [index.symbolCount_eq] at hsymbols
  have hlength := length_le_nodeCountAll index.forest
  have hforest := reads_readForest index.forest .root 0
    (SymbolNode.nodeCountAll index.forest + 1) 1 0 (SymbolNode.nodeCountAll index.forest)
    (Nat.le_succ _) (Nat.le_refl _) (by omega) (Nat.le_refl _) (by omega) wellFormed
    (SymbolIndex.storable_of_mem_places storable)
  rw [readIndex_eq, encode]
  refine (reads_take _ (show magic.length = 4 from rfl)).bind ?_
  rw [if_neg (fun h => h rfl)]
  refine (reads_readWord _).bind ?_
  rw [if_neg (fun h => h rfl)]
  refine (reads_take _ index.fingerprint.length_toBytes).bind ?_
  refine (reads_readCount hnodes).bind ?_
  rw [if_neg (Nat.succ_ne_zero _)]
  refine reads_headBytes (by decide) (by omega) (by decide) ?_
  rw [if_neg (by simp)]
  refine hforest.last ?_
  rw [if_neg (by simp), Fingerprint.ofBytes?_toBytes]
  have h : Reads (pure { fingerprint := index.fingerprint, forest := index.forest }
      : Reader SymbolIndex) [] index := by
    rw [index.eq_of_forest]
    exact reads_pure index
  exact h

/-- A well-formed index within the bounds of the format is recovered from its bytes. -/
theorem decode_encode (wellFormed : index.WellFormed) (storable : index.Storable) :
    decode (encode index) = .ok index := by
  have h := reads_readIndex wellFormed storable []
  rw [List.append_nil] at h
  rw [decode, h]

/-- The bytes of the index of a project hold all of it. -/
theorem decode_encode_build (project : Project) (storable : (SymbolIndex.build project).Storable) :
    decode (encode (SymbolIndex.build project)) = .ok (SymbolIndex.build project) :=
  decode_encode (SymbolIndex.wellFormed_build project) storable

/-- A class with a method, next to a library with a generic interface. -/
theorem decode_encode_sample :
    let project : Project := { info := Sample.project 1 [Sample.testCase [Sample.method]] }
    (SymbolIndex.build project).Storable
      ∧ decode (encode (SymbolIndex.build project)) = .ok (SymbolIndex.build project) := by
  have storable : (SymbolIndex.build
      { info := Sample.project 1 [Sample.testCase [Sample.method]] }).Storable := by
    decide +kernel
  exact ⟨storable, decode_encode_build _ storable⟩

end IndexCodec

end SymbolSearch
