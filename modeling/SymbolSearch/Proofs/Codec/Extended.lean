import SymbolSearch.Proofs.Codec.Canonical

/-!
# Extended bytes

What becomes of a reader's verdict when bytes are appended to its input. A value stays, and what was
appended is left over; an error stays, unless it was that there are not enough bytes. Hence the
stored form of an index marks its own end: it cannot be extended, and all that is missing from a
part of it is the rest.
-/

namespace SymbolSearch

namespace Bytes.Reader

variable {ε α β : Type} {short : ε}

/-- Bytes behind the input change nothing, if the reader does not run out of bytes before them. -/
structure IsStable (short : ε) (reader : Reader ε α) : Prop where
  value : ∀ input a rest, reader input = .ok (a, rest) →
    ∀ more, reader (input ++ more) = .ok (a, rest ++ more)
  error : ∀ input error, reader input = .error error → error ≠ short →
    ∀ more, reader (input ++ more) = .error error

theorem bind_of_ok {reader : Reader ε α} {next : α → Reader ε β} {input middle : Bytes} {a : α}
    (h : reader input = .ok (a, middle)) : (reader >>= next) input = next a middle := by
  change (reader input >>= fun p => next p.1 p.2) = _
  rw [h]
  rfl

theorem bind_of_error {reader : Reader ε α} {next : α → Reader ε β} {input : Bytes} {error : ε}
    (h : reader input = .error error) : (reader >>= next) input = .error error := by
  change (reader input >>= fun p => next p.1 p.2) = _
  rw [h]
  rfl

theorem isStable_pure (a : α) : IsStable short (pure a : Reader ε α) where
  value := by
    intro input b rest h more
    cases h
    rfl
  error := by
    intro input error h
    cases h

theorem isStable_fail (error : ε) : IsStable short (fail error : Reader ε α) where
  value := by
    intro input a rest h
    cases h
  error := by
    intro input other h _ more
    cases h
    rfl

theorem IsStable.bind {reader : Reader ε α} {next : α → Reader ε β}
    (hreader : IsStable short reader) (hnext : ∀ a, IsStable short (next a)) :
    IsStable short (reader >>= next) where
  value := by
    intro input b rest h more
    obtain ⟨a, middle, hfirst, hsecond⟩ := bind_eq_ok h
    rw [bind_of_ok (hreader.value input a middle hfirst more)]
    exact (hnext a).value middle b rest hsecond more
  error := by
    intro input error h hshort more
    rcases bind_eq_error h with hfirst | ⟨a, middle, hfirst, hsecond⟩
    · exact bind_of_error (hreader.error input error hfirst hshort more)
    · rw [bind_of_ok (hreader.value input a middle hfirst more)]
      exact (hnext a).error middle error hsecond hshort more

theorem IsStable.map {reader : Reader ε α} (h : IsStable short reader) (f : α → β) :
    IsStable short (f <$> reader) := by
  have hbind : IsStable short (reader >>= fun a => pure (f a)) :=
    h.bind fun a => isStable_pure (f a)
  exact hbind

/-- The one reader that looks for the end of the input says so if it finds it. -/
theorem isStable_take (short : ε) (n : Nat) : IsStable short (take short n) where
  value := by
    intro input taken rest h more
    by_cases hn : n ≤ input.length
    · have hmore : n ≤ (input ++ more).length := by simp; omega
      simp only [take, List.length_take, Nat.min_eq_left hn, if_true, Except.ok.injEq,
        Prod.mk.injEq] at h
      simp only [take, List.length_take, Nat.min_eq_left hmore, if_true]
      rw [List.take_append_of_le_length hn, List.drop_append_of_le_length hn, h.1, h.2]
    · have hlength : ¬ min n input.length = n := by omega
      simp [take, hlength] at h
  error := by
    intro input error h hshort
    rw [take] at h
    split at h
    · cases h
    · cases h
      exact absurd rfl hshort

theorem isStable_number (short : ε) (width : Nat) : IsStable short (number short width) :=
  (isStable_take short width).map value

theorem isStable_uint32 (short : ε) : IsStable short (uint32 short) :=
  (isStable_number short 4).map UInt32.ofNat

theorem isStable_times {item : Reader ε α} (h : IsStable short item) (count : Nat) :
    IsStable short (times item count) := by
  induction count with
  | zero => exact isStable_pure []
  | succ count ih =>
    apply h.bind
    intro head
    apply ih.bind
    intro tail
    exact isStable_pure (head :: tail)

end Bytes.Reader

namespace IndexCodec

open Bytes.Reader

/-! ### The readers of an index -/

theorem isStable_orCorrupt {α : Type} (what : Corruption) (a? : Option α) :
    IsStable .truncated (orCorrupt what a?) := by
  cases a? with
  | none => exact isStable_fail _
  | some a => exact isStable_pure a

theorem isStable_readCount : IsStable .truncated readCount := isStable_number _ 4

theorem isStable_readWord : IsStable .truncated readWord := isStable_uint32 _

theorem isStable_readText : IsStable .truncated readText := by
  apply isStable_readCount.bind
  intro length
  apply (isStable_take _ length).bind
  intro taken
  exact isStable_orCorrupt _ _

theorem isStable_readTag {α : Type} (what : Corruption) (ofTag? : Nat → Option α) :
    IsStable .truncated (readTag what ofTag?) := by
  apply (isStable_number _ 1).bind
  intro tag
  exact isStable_orCorrupt _ _

theorem isStable_readLocation : IsStable .truncated readLocation := by
  apply isStable_readWord.bind
  intro document
  apply isStable_readWord.bind
  intro start
  apply isStable_readWord.bind
  intro stop
  apply (isStable_orCorrupt _ _).bind
  intro range
  exact isStable_pure _

theorem isStable_readContainer (enclosing : Enclosing) (handle : Nat) :
    IsStable .truncated (readContainer enclosing handle) := by
  apply isStable_readCount.bind
  intro parent
  split
  · split
    · exact isStable_pure none
    · exact isStable_fail _
  · split
    · exact isStable_fail _
    · split
      · exact isStable_pure _
      · exact isStable_fail _

theorem isStable_readEntry (enclosing : Enclosing) (handle : Nat) :
    IsStable .truncated (readEntry enclosing handle) := by
  apply (isStable_readTag _ _).bind
  intro kind
  apply (isStable_readTag _ _).bind
  intro accessibility
  apply (isStable_readTag _ _).bind
  intro origin
  apply isStable_readWord.bind
  intro arity
  apply isStable_readCount.bind
  intro count
  apply (isStable_times isStable_readText count).bind
  intro parameters
  apply (isStable_readContainer enclosing handle).bind
  intro container
  apply isStable_readCount.bind
  intro count
  apply (isStable_times isStable_readLocation count).bind
  intro locations
  exact isStable_pure _

theorem isStable_readEntries (enclosing : Enclosing) (handle count : Nat) :
    IsStable .truncated (readEntries enclosing handle count) := by
  induction count generalizing handle with
  | zero => exact isStable_pure []
  | succ count ih =>
    apply (isStable_readEntry enclosing handle).bind
    intro entry
    apply (ih (handle + 1)).bind
    intro entries
    exact isStable_pure (entry :: entries)

theorem isStable_readForest (enclosing : Enclosing) (fuel count : Nat) (progress : Progress) :
    IsStable .truncated (readForest enclosing fuel count progress) := by
  induction fuel generalizing enclosing count progress with
  | zero =>
    cases count with
    | zero => exact isStable_pure _
    | succ count => exact isStable_fail _
  | succ fuel ih =>
    cases count with
    | zero => exact isStable_pure _
    | succ count =>
      rw [readForest_succ]
      split
      · exact isStable_fail _
      apply isStable_readText.bind
      intro name
      apply isStable_readCount.bind
      intro children
      apply isStable_readCount.bind
      intro symbols
      split
      · exact isStable_fail _
      apply (isStable_readEntries _ _ _).bind
      intro entries
      apply (ih _ _ _).bind
      intro inside
      apply (ih _ _ _).bind
      intro siblings
      exact isStable_pure _

theorem isStable_readIndex : IsStable .truncated readIndex := by
  rw [readIndex_eq]
  apply (isStable_take _ 4).bind
  intro mark
  split
  · exact isStable_fail _
  apply isStable_readWord.bind
  intro version
  split
  · exact isStable_fail _
  apply (isStable_take _ 32).bind
  intro digest
  apply isStable_readCount.bind
  intro nodes
  split
  · exact isStable_fail _
  apply isStable_readText.bind
  intro name
  apply isStable_readCount.bind
  intro children
  apply isStable_readCount.bind
  intro symbols
  split
  · exact isStable_fail _
  apply (isStable_readForest _ _ _ _).bind
  intro read
  split
  · exact isStable_fail _
  split
  · exact isStable_pure _
  · exact isStable_fail _

/-! ### Verdicts on byte strings -/

theorem decode_of_rest {bytes rest : Bytes} {index : SymbolIndex}
    (h : readIndex bytes = .ok (index, rest)) (hrest : rest ≠ []) :
    decode bytes = .error (.corrupt .trailingBytes) := by
  cases rest with
  | nil => exact absurd rfl hrest
  | cons byte rest => simp only [decode, h]

/-- Bytes behind a stored index are noticed. -/
theorem decode_append_of_ok {bytes more : Bytes} {index : SymbolIndex}
    (h : decode bytes = .ok index) (hmore : more ≠ []) :
    decode (bytes ++ more) = .error (.corrupt .trailingBytes) := by
  have hread := isStable_readIndex.value bytes index [] (decode_eq_ok h) more
  exact decode_of_rest hread hmore

/-- An error that is not for want of bytes does not depend on what follows. -/
theorem decode_append_of_error {bytes more : Bytes} {error : IndexError}
    (h : decode bytes = .error error) (hshort : error ≠ .truncated) :
    decode (bytes ++ more) = .error error := by
  cases hread : readIndex bytes with
  | error other =>
    have hsame : other = error := by simpa [decode, hread] using h
    have hread' := isStable_readIndex.error bytes other hread (hsame ▸ hshort) more
    simp only [decode, hread', hsame]
  | ok read =>
    obtain ⟨index, rest⟩ := read
    cases rest with
    | nil => simp [decode, hread] at h
    | cons byte rest =>
      have herror : error = .corrupt .trailingBytes := by simpa [decode, hread] using h.symm
      have hread' := isStable_readIndex.value bytes index (byte :: rest) hread more
      rw [herror]
      exact decode_of_rest hread' (List.cons_ne_nil _ _)

/-- A part of an accepted byte string, cut off before its end, lacks nothing but the rest. -/
theorem decode_of_strict_part {part bytes : Bytes} {index : SymbolIndex}
    (h : decode bytes = .ok index) (hpart : part <+: bytes) (hne : part ≠ bytes) :
    decode part = .error .truncated := by
  obtain ⟨more, rfl⟩ := hpart
  have hmore : more ≠ [] := by
    rintro rfl
    simp at hne
  cases hdecode : decode part with
  | ok other =>
    have htrailing := decode_append_of_ok hdecode hmore
    rw [h] at htrailing
    cases htrailing
  | error error =>
    by_cases hshort : error = .truncated
    · rw [hshort]
    · have hsame : decode (part ++ more) = .error error := decode_append_of_error hdecode hshort
      rw [h] at hsame
      cases hsame

/-- The indexes whose stored form is accepted: those that were read, and those of projects, within
the bounds of the format. -/
theorem decode_encode_of_read_or_built {index : SymbolIndex}
    (h : (∃ bytes, decode bytes = .ok index)
      ∨ (∃ project, index = SymbolIndex.build project) ∧ index.Storable) :
    decode (encode index) = .ok index := by
  rcases h with ⟨bytes, hbytes⟩ | ⟨⟨project, rfl⟩, storable⟩
  · rw [encode_of_decode hbytes, hbytes]
  · exact decode_encode_build project storable

/-- An accepted byte string is no longer accepted when bytes are appended, as they are left over;
any error but that of missing bytes stays the same. So every strict prefix of an accepted byte
string is found to be truncated. The stored form of an index is one, if the index has been read or
is that of a project whose counts and lengths fit in the numbers of the format. -/
theorem decode_extended :
    (∀ (bytes more : Bytes) (index : SymbolIndex), decode bytes = .ok index → more ≠ [] →
      ∃ what, decode (bytes ++ more) = .error (.corrupt what)
        ∧ what.describe = "trailing bytes after index")
    ∧ (∀ (bytes more : Bytes) (error : IndexError), decode bytes = .error error →
      error ≠ .truncated → decode (bytes ++ more) = .error error)
    ∧ (∀ (bytes part : Bytes) (index : SymbolIndex), decode bytes = .ok index → part <+: bytes →
      part ≠ bytes → decode part = .error .truncated)
    ∧ ∀ (index : SymbolIndex) (part : Bytes), ((∃ bytes, decode bytes = .ok index)
        ∨ (∃ project, index = SymbolIndex.build project) ∧ index.Storable) →
      part <+: encode index → part ≠ encode index → decode part = .error .truncated := by
  refine ⟨?_, ?_, ?_, ?_⟩
  · intro bytes more index h hmore
    exact ⟨.trailingBytes, decode_append_of_ok h hmore, rfl⟩
  · intro bytes more error h hshort
    exact decode_append_of_error h hshort
  · intro bytes part index h hpart hne
    exact decode_of_strict_part h hpart hne
  · intro index part hindex hpart hne
    exact decode_of_strict_part (decode_encode_of_read_or_built hindex) hpart hne

/-- The stored form of an index with one class: with a byte too many, and cut off inside the name.
A wrong mark is not forgiven whatever comes after it. -/
theorem decode_extended_sample :
    let project : Project := { info := ⟨⟨1⟩, "P", "P", "C#",
      [⟨⟨1⟩, "p.cs", [Declaration.ofName .classDecl "Class"]⟩], [], []⟩ }
    let index := SymbolIndex.build project
    let stored := encode index
    let part := stored.take 63
    let wrong : Bytes := [78, 83, 89, 85]
    (index.Storable ∧ decode stored = .ok index ∧ part <+: stored ∧ part ≠ stored
        ∧ decode wrong = .error .badMagic)
      ∧ (∃ what, decode (stored ++ [0]) = .error (.corrupt what)
        ∧ what.describe = "trailing bytes after index")
      ∧ decode part = .error .truncated ∧ decode (stored.take 3) = .error .truncated
      ∧ decode (wrong ++ stored) = .error .badMagic := by
  intro project index stored part wrong
  have storable : index.Storable := by decide +kernel
  have hstored : decode stored = .ok index := decode_encode_build project storable
  have hpart : part <+: stored := List.take_prefix 63 stored
  have shorter {n : Nat} (h : (stored.take n).length ≠ stored.length) : stored.take n ≠ stored :=
    fun heq => h (congrArg List.length heq)
  have hne : part ≠ stored := shorter (by decide +kernel)
  have hne' : stored.take 3 ≠ stored := shorter (by decide +kernel)
  have hwrong : decode wrong = .error .badMagic := rfl
  exact ⟨⟨storable, hstored, hpart, hne, hwrong⟩,
    decode_extended.1 stored [0] index hstored (List.cons_ne_nil _ _),
    decode_extended.2.2.2 index part (.inr ⟨⟨project, rfl⟩, storable⟩) hpart hne,
    decode_extended.2.2.1 stored _ index hstored (List.take_prefix 3 stored) hne',
    decode_extended.2.1 wrong stored .badMagic hwrong (by simp)⟩

end IndexCodec

end SymbolSearch
