import SymbolSearch.Proofs.Codec.Consumed
import SymbolSearch.Proofs.Codec.RoundTrip
import SymbolSearch.Proofs.Forest.Numbered

/-!
# The canonical form of indexes

An index has one stored form: whatever bytes it is read from, they are the ones that it is written
as. The numbers of children and symbols that the bytes announce are the numbers of those that
follow, no tag has two forms, and nothing is left over.
-/

namespace SymbolSearch

namespace IndexCodec

open Bytes.Reader

/-! ### Symbols -/

theorem consumes_readWord : Consumes readWord fun word bytes => bytes = Bytes.ofUInt32 word :=
  consumes_uint32 _

theorem consumes_readCount : Consumes readCount fun n bytes => bytes = Bytes.ofCount n := by
  apply (consumes_number _ 4).mono
  exact fun n bytes h => h.1

theorem consumes_orCorrupt {α : Type} (what : Corruption) (a? : Option α) :
    Consumes (orCorrupt what a?) fun a bytes => a? = some a ∧ bytes = [] := by
  cases a? with
  | none => exact consumes_fail _
  | some a => exact consumes_pure ⟨rfl, rfl⟩

theorem consumes_readText : Consumes readText fun text bytes => bytes = textBytes text := by
  refine consumes_readCount.bind fun length first hfirst => ?_
  refine (consumes_take _ length).bind fun taken second hsecond => ?_
  apply (consumes_orCorrupt .invalidText (Text.utf8? taken)).mono
  rintro text bytes ⟨htext, rfl⟩
  obtain ⟨rfl, rfl⟩ := hsecond
  rw [textBytes, Text.ofString_of_utf8? htext, hfirst, List.append_nil]

theorem consumes_readTag {α : Type} (what : Corruption) (ofTag? : Nat → Option α) :
    Consumes (readTag what ofTag?) fun a bytes =>
      ∃ tag, ofTag? tag = some a ∧ bytes = Bytes.littleEndian 1 tag := by
  refine (consumes_number _ 1).bind fun tag first hfirst => ?_
  apply (consumes_orCorrupt what (ofTag? tag)).mono
  rintro a bytes ⟨ha, rfl⟩
  exact ⟨tag, ha, by rw [hfirst.1, List.append_nil]⟩

theorem consumes_readLocation :
    Consumes readLocation fun location bytes => bytes = locationBytes location := by
  refine consumes_readWord.bind fun document first hfirst => ?_
  refine consumes_readWord.bind fun start second hsecond => ?_
  refine consumes_readWord.bind fun stop third hthird => ?_
  refine (consumes_orCorrupt .invertedRange _).bind fun range fourth hfourth => ?_
  apply consumes_pure
  obtain ⟨hrange, rfl⟩ := hfourth
  rw [TextRange.ofBounds?] at hrange
  split at hrange
  · cases hrange
    simp [locationBytes, hfirst, hsecond, hthird]
  · cases hrange

/-- The written parent of a symbol is the one that its container stands for. -/
theorem consumes_readContainer (enclosing : Enclosing) (handle : Nat) :
    Consumes (readContainer enclosing handle) fun container bytes =>
      bytes = Bytes.ofCount ((container.map (enclosing.first + ·)).getD noParent) := by
  refine consumes_readCount.bind fun parent first hfirst => ?_
  split
  · rename_i hparent
    split
    · apply consumes_pure
      rw [hfirst, hparent, List.append_nil]
      rfl
    · exact consumes_fail _
  · split
    · exact consumes_fail _
    · split
      · rename_i hrange
        apply consumes_pure
        rw [hfirst, List.append_nil, Option.map_some, Option.getD_some,
          Nat.add_sub_cancel' hrange.1]
      · exact consumes_fail _

theorem consumes_readEntry (enclosing : Enclosing) (handle : Nat) :
    Consumes (readEntry enclosing handle) fun entry bytes =>
      bytes = entryBytes enclosing.first entry := by
  refine (consumes_readTag _ _).bind fun kind first hkind => ?_
  refine (consumes_readTag _ _).bind fun accessibility second haccessibility => ?_
  refine (consumes_readTag _ _).bind fun origin third horigin => ?_
  refine consumes_readWord.bind fun arity fourth harity => ?_
  refine consumes_readCount.bind fun count fifth hcount => ?_
  refine (consumes_times consumes_readText count).bind fun parameters sixth hparameters => ?_
  refine (consumes_readContainer enclosing handle).bind fun container seventh hcontainer => ?_
  refine consumes_readCount.bind fun count' eighth hcount' => ?_
  refine (consumes_times consumes_readLocation count').bind fun locations ninth hlocations => ?_
  apply consumes_pure
  obtain ⟨tag, htag, rfl⟩ := hkind
  obtain ⟨tag', htag', rfl⟩ := haccessibility
  obtain ⟨tag'', htag'', rfl⟩ := horigin
  obtain ⟨rfl, rfl⟩ := hparameters
  obtain ⟨rfl, rfl⟩ := hlocations
  simp only [entryBytes, SymbolKind.tag_of_ofTag? htag, Accessibility.tag_of_ofTag? htag',
    SymbolOrigin.tag_of_ofTag? htag'', harity, hcount, hcontainer, hcount', List.append_assoc,
    List.append_nil]

theorem consumes_readEntries (enclosing : Enclosing) (handle count : Nat) :
    Consumes (readEntries enclosing handle count) fun entries bytes =>
      entries.length = count ∧ bytes = entries.flatMap (entryBytes enclosing.first) := by
  induction count generalizing handle with
  | zero => exact consumes_pure ⟨rfl, rfl⟩
  | succ count ih =>
    refine (consumes_readEntry enclosing handle).bind fun entry first hfirst => ?_
    refine (ih (handle + 1)).bind fun entries second hsecond => ?_
    obtain ⟨rfl, rfl⟩ := hsecond
    apply consumes_pure
    simp [hfirst]

/-! ### Forests -/

/-- The forest has as many siblings as were announced, is written as these bytes, and accounts for
the progress that was made by reading it. -/
structure ReadsAs (enclosing : Enclosing) (count : Nat) (progress : Progress)
    (read : List SymbolNode × Progress) (bytes : Bytes) : Prop where
  length_eq : read.1.length = count
  bytes_eq : bytes = forestBytes enclosing.first progress.symbols read.1
  nodes_eq : SymbolNode.nodeCountAll read.1 + read.2.nodes = progress.nodes
  symbols_eq : read.2.symbols = progress.symbols + SymbolNode.symbolCountAll read.1

theorem readsAs_nil (enclosing : Enclosing) (progress : Progress) :
    ReadsAs enclosing 0 progress ([], progress) [] where
  length_eq := rfl
  bytes_eq := rfl
  nodes_eq := Nat.zero_add _
  symbols_eq := rfl

/-- A node with the forest inside it, in front of its siblings. -/
theorem readsAs_cons {enclosing : Enclosing} {count children : Nat} {progress : Progress}
    {name : String} {entries : List Entry} {inside siblings : List SymbolNode × Progress}
    {bytes bytes' : Bytes} (hnodes : progress.nodes ≠ 0)
    (hinside : ReadsAs ⟨progress.symbols, entries.length⟩ children
      ⟨progress.nodes - 1, progress.symbols + entries.length⟩ inside bytes)
    (hsiblings : ReadsAs enclosing count inside.2 siblings bytes') :
    ReadsAs enclosing (count + 1) progress (⟨name, entries, inside.1⟩ :: siblings.1, siblings.2)
      (headBytes name children entries.length
        ++ (entries.flatMap (entryBytes enclosing.first) ++ (bytes ++ bytes'))) := by
  have hinner := hinside.nodes_eq
  have houter := hsiblings.nodes_eq
  have hsymbols : inside.2.symbols
      = progress.symbols + SymbolNode.symbolCount ⟨name, entries, inside.1⟩ := by
    rw [hinside.symbols_eq, SymbolNode.symbolCount, Nat.add_assoc]
  constructor
  · rw [List.length_cons, hsiblings.length_eq]
  · rw [hsiblings.bytes_eq, hinside.bytes_eq, forestBytes, nodeBytes, hsymbols,
      hinside.length_eq]
    simp only [List.append_assoc]
  · simp only [SymbolNode.nodeCountAll, SymbolNode.nodeCount] at hinner ⊢
    omega
  · rw [hsiblings.symbols_eq, hsymbols, SymbolNode.symbolCountAll, Nat.add_assoc]

theorem consumes_readForest (enclosing : Enclosing) (fuel count : Nat) (progress : Progress) :
    Consumes (readForest enclosing fuel count progress) (ReadsAs enclosing count progress) := by
  induction fuel generalizing enclosing count progress with
  | zero =>
    cases count with
    | zero => exact consumes_pure (readsAs_nil enclosing progress)
    | succ count => exact consumes_fail _
  | succ fuel ih =>
    cases count with
    | zero => exact consumes_pure (readsAs_nil enclosing progress)
    | succ count =>
      rw [readForest_succ]
      split
      · exact consumes_fail _
      rename_i hnodes
      refine consumes_readText.bind fun name first hname => ?_
      refine consumes_readCount.bind fun children second hchildren => ?_
      refine consumes_readCount.bind fun symbols third hsymbols => ?_
      split
      · exact consumes_fail _
      refine (consumes_readEntries _ _ _).bind fun entries fourth hentries => ?_
      refine (ih _ _ _).bind fun inside fifth hinside => ?_
      refine (ih _ _ _).bind fun siblings sixth hsiblings => ?_
      obtain ⟨rfl, rfl⟩ := hentries
      apply consumes_pure
      have h : ReadsAs enclosing (count + 1) progress
          (⟨name, entries, inside.1⟩ :: siblings.1, siblings.2) _ :=
        readsAs_cons hnodes hinside hsiblings
      rw [headBytes, ← hname, ← hchildren, ← hsymbols] at h
      simpa only [List.append_assoc, List.append_nil] using h

/-! ### Indexes -/

theorem consumes_readIndex : Consumes readIndex fun index bytes => bytes = encode index := by
  rw [readIndex_eq]
  refine (consumes_take _ 4).bind fun mark first hfirst => ?_
  split
  · exact consumes_fail _
  rename_i hmark
  refine consumes_readWord.bind fun version second hsecond => ?_
  split
  · exact consumes_fail _
  rename_i hversion
  refine (consumes_take _ 32).bind fun digest third hthird => ?_
  refine consumes_readCount.bind fun nodes fourth hfourth => ?_
  split
  · exact consumes_fail _
  rename_i hnodes
  refine consumes_readText.bind fun name fifth hname => ?_
  refine consumes_readCount.bind fun children sixth hchildren => ?_
  refine consumes_readCount.bind fun symbols seventh hsymbols => ?_
  split
  · exact consumes_fail _
  rename_i hroot
  refine (consumes_readForest _ _ _ _).bind fun read eighth hread => ?_
  split
  · exact consumes_fail _
  rename_i hrest
  split
  · rename_i fingerprint hfingerprint
    apply consumes_pure
    have hcount : SymbolNode.nodeCountAll read.1 + 1 = nodes := by
      have h := hread.nodes_eq
      simp only at h
      omega
    have hempty : name = "" ∧ symbols = 0 := by
      rw [not_or, Decidable.not_not, Decidable.not_not, String.isEmpty_iff] at hroot
      exact hroot
    obtain ⟨rfl, rfl⟩ := hempty
    rw [hfirst.1, hsecond, hthird.1, hfourth, hname, hchildren, hsymbols, hread.bytes_eq, encode,
      Decidable.not_not.1 hmark, Decidable.not_not.1 hversion,
      Fingerprint.toBytes_of_ofBytes? hfingerprint, hcount, hread.length_eq, headBytes]
    simp only [List.append_assoc, List.append_nil]
  · exact consumes_fail _

/-- An accepted byte string is the one that the index is written as. -/
theorem encode_of_decode {bytes : Bytes} {index : SymbolIndex} (h : decode bytes = .ok index) :
    encode index = bytes := by
  obtain ⟨consumed, hbytes, hindex⟩ := consumes_readIndex bytes index [] (decode_eq_ok h)
  rw [hbytes, hindex, List.append_nil]

/-- Every accepted byte string is the stored form of its index. Hence no two of them are read as
equal indexes, and what is accepted in place of the stored form of an index is a different index. -/
theorem decode_canonical :
    (∀ (bytes : Bytes) (index : SymbolIndex), decode bytes = .ok index → encode index = bytes)
    ∧ (∀ (a b : Bytes) (indexA indexB : SymbolIndex), decode a = .ok indexA →
      decode b = .ok indexB → a ≠ b → (indexA == indexB) = false)
    ∧ ∀ (index other : SymbolIndex) (changed : Bytes), changed ≠ encode index →
      decode changed = .ok other → (other == index) = false := by
  refine ⟨fun bytes index h => encode_of_decode h, ?_, ?_⟩
  · intro a b indexA indexB ha hb hne
    refine beq_false_of_ne fun heq => hne ?_
    rw [← encode_of_decode ha, ← encode_of_decode hb, heq]
  · intro index other changed hne hdecode
    refine beq_false_of_ne fun heq => hne ?_
    rw [← encode_of_decode hdecode, heq]

/-- The stored form of an index with one class, and the same with a byte of the fingerprint and the
tag of the kind changed. -/
theorem decode_changed_sample :
    let symbol : SymbolKind → Entry := fun kind =>
      ⟨⟨kind, 0, [], .source, none⟩, .publicAccess, []⟩
    let index : SymbolIndex :=
      { fingerprint := ⟨.replicate 32 0⟩, forest := [⟨"A", [symbol .classDecl], []⟩] }
    let other : SymbolIndex :=
      { fingerprint := ⟨(Vector.replicate 32 0).set 0 7⟩,
        forest := [⟨"A", [symbol .structDecl], []⟩] }
    let stored : Bytes := magic ++ [1, 0, 0, 0] ++ List.replicate 32 0 ++ [2, 0, 0, 0]
      ++ [0, 0, 0, 0, 1, 0, 0, 0, 0, 0, 0, 0]
      ++ [1, 0, 0, 0, 65, 0, 0, 0, 0, 1, 0, 0, 0]
      ++ [1, 0, 0, 0, 0, 0, 0, 0, 0, 0, 0, 255, 255, 255, 255, 0, 0, 0, 0]
    let changed : Bytes := (stored.set 8 7).set 69 2
    decode stored = .ok index ∧ encode index = stored ∧ decode changed = .ok other
      ∧ encode other = changed ∧ (index == other) = false ∧ (other == index) = false := by
  intro symbol index other stored changed
  have node (kind : SymbolKind) : SymbolNode.WellFormed 0 ⟨"A", [symbol kind], []⟩ := by
    refine ⟨by decide, List.cons_ne_nil _ _, fun entry hentry => ?_, trivial⟩
    obtain rfl := List.mem_singleton.1 hentry
    rfl
  have hstored : encode index = stored := by decide +kernel
  have hchanged : encode other = changed := by decide +kernel
  have hne : stored ≠ changed := by decide
  have hindex : decode stored = .ok index := by
    rw [← hstored]
    exact decode_encode (show index.WellFormed from ⟨node .classDecl, trivial⟩)
      (by decide +kernel)
  have hother : decode changed = .ok other := by
    rw [← hchanged]
    exact decode_encode (show other.WellFormed from ⟨node .structDecl, trivial⟩)
      (by decide +kernel)
  exact ⟨hindex, decode_canonical.1 stored index hindex, hother,
    decode_canonical.1 changed other hother,
    decode_canonical.2.1 stored changed index other hindex hother hne,
    decode_canonical.2.2 index other changed (hstored ▸ hne.symm) hother⟩

end IndexCodec

end SymbolSearch
