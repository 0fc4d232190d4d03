import SymbolSearch.Proofs.Codec.Reader

/-!
# Consumed bytes

What a reader says of the bytes that it consumes: the value that it returns and the bytes in front
of the rest are related. For a canonical format the relation is that the bytes are the written form
of the value. It passes through the composition of readers, where the bytes of the parts follow
each other.
-/

namespace SymbolSearch.Bytes

namespace Reader

variable {ε α β : Type}

/-- Every value that the reader returns is related to the bytes that are gone. -/
def Consumes (reader : Reader ε α) (holds : α → Bytes → Prop) : Prop :=
  ∀ input a rest, reader input = .ok (a, rest) → ∃ bytes, input = bytes ++ rest ∧ holds a bytes

theorem consumes_pure {holds : α → Bytes → Prop} {a : α} (h : holds a []) :
    Consumes (pure a : Reader ε α) holds := by
  intro input b rest hpure
  cases hpure
  exact ⟨[], rfl, h⟩

theorem consumes_fail {holds : α → Bytes → Prop} (error : ε) : Consumes (fail error) holds := by
  intro input a rest h
  cases h

theorem Consumes.bind {reader : Reader ε α} {next : α → Reader ε β} {holds : α → Bytes → Prop}
    {concluded : β → Bytes → Prop} (hreader : Consumes reader holds)
    (hnext : ∀ a first, holds a first →
      Consumes (next a) fun b second => concluded b (first ++ second)) :
    Consumes (reader >>= next) concluded := by
  intro input b rest h
  obtain ⟨a, middle, ha, hb⟩ := bind_eq_ok h
  obtain ⟨first, rfl, hfirst⟩ := hreader input a middle ha
  obtain ⟨second, rfl, hsecond⟩ := hnext a first hfirst middle b rest hb
  exact ⟨first ++ second, (List.append_assoc first second rest).symm, hsecond⟩

theorem Consumes.mono {reader : Reader ε α} {holds concluded : α → Bytes → Prop}
    (h : Consumes reader holds) (himp : ∀ a bytes, holds a bytes → concluded a bytes) :
    Consumes reader concluded := by
  intro input a rest hread
  obtain ⟨bytes, hbytes, ha⟩ := h input a rest hread
  exact ⟨bytes, hbytes, himp a bytes ha⟩

theorem Consumes.map {reader : Reader ε α} {f : α → β} {holds : α → Bytes → Prop}
    {concluded : β → Bytes → Prop} (hreader : Consumes reader holds)
    (h : ∀ a bytes, holds a bytes → concluded (f a) bytes) :
    Consumes (f <$> reader) concluded := by
  have hbind : Consumes (reader >>= fun a => pure (f a)) concluded := by
    refine hreader.bind fun a first hfirst => consumes_pure ?_
    rw [List.append_nil]
    exact h a first hfirst
  exact hbind

theorem consumes_take (short : ε) (n : Nat) :
    Consumes (take short n) fun taken bytes => bytes = taken ∧ taken.length = n := by
  intro input taken rest h
  rw [take] at h
  split at h
  · rename_i hlength
    cases h
    exact ⟨input.take n, (List.take_append_drop n input).symm, rfl, hlength⟩
  · cases h

theorem consumes_number (short : ε) (width : Nat) :
    Consumes (number short width) fun n bytes => bytes = littleEndian width n ∧ n < limit width := by
  apply (consumes_take short width).map
  rintro taken bytes ⟨rfl, rfl⟩
  exact ⟨(littleEndian_value bytes).symm, value_lt bytes⟩

theorem consumes_uint32 (short : ε) :
    Consumes (uint32 short) fun word bytes => bytes = ofUInt32 word := by
  apply (consumes_number short 4).map
  rintro n bytes ⟨rfl, hlt⟩
  rw [limit_four] at hlt
  rw [ofUInt32, UInt32.toNat_ofNat_of_lt' hlt]

theorem consumes_times {item : Reader ε α} {itemBytes : α → Bytes}
    (h : Consumes item fun a bytes => bytes = itemBytes a) (count : Nat) :
    Consumes (times item count) fun items bytes =>
      items.length = count ∧ bytes = items.flatMap itemBytes := by
  induction count with
  | zero => exact consumes_pure ⟨rfl, rfl⟩
  | succ count ih =>
    refine h.bind fun a first hfirst => ih.bind fun items second hsecond => ?_
    obtain ⟨rfl, rfl⟩ := hsecond
    apply consumes_pure
    simp [hfirst]

end Reader

end SymbolSearch.Bytes

namespace SymbolSearch

/-- A byte string that is read as a text is the text's own. -/
theorem Text.ofString_of_utf8? {bytes : Bytes} {text : String} (h : utf8? bytes = some text) :
    Bytes.ofString text = bytes := by
  rw [utf8?, String.fromUTF8?] at h
  split at h
  · cases h
    rw [Bytes.ofString_eq]
    change bytes.toByteArray.data.toList = bytes
    rw [List.data_toByteArray]
  · cases h

end SymbolSearch
