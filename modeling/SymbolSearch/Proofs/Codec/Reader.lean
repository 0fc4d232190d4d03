import SymbolSearch.Text.Utf8

/-!
# Readers

Three facts about a reader of byte strings: that it reads a value off some bytes, whatever follows
them, that all values it may return have a property, and that all errors it may fail with have one.
They pass through the composition of readers.
-/

namespace SymbolSearch.Bytes

theorem value_littleEndian_of_lt {width n : Nat} (h : n < limit width) :
    (littleEndian width n).value = n := by
  rw [value_littleEndian, Nat.mod_eq_of_lt h]

theorem limit_four : limit 4 = 4294967296 := by decide

theorem toNat_lt_limit (word : UInt32) : word.toNat < limit 4 := by
  rw [limit_four]
  exact word.toNat_lt

namespace Reader

variable {ε α β : Type}

theorem bind_eq_ok {reader : Reader ε α} {next : α → Reader ε β} {input rest : Bytes} {b : β}
    (h : (reader >>= next) input = .ok (b, rest)) :
    ∃ a middle, reader input = .ok (a, middle) ∧ next a middle = .ok (b, rest) := by
  change (reader input >>= fun p => next p.1 p.2) = .ok (b, rest) at h
  cases hreader : reader input with
  | error error => rw [hreader] at h; cases h
  | ok p => exact ⟨p.1, p.2, rfl, by rw [hreader] at h; exact h⟩

theorem bind_eq_error {reader : Reader ε α} {next : α → Reader ε β} {input : Bytes} {error : ε}
    (h : (reader >>= next) input = .error error) : reader input = .error error
      ∨ ∃ a middle, reader input = .ok (a, middle) ∧ next a middle = .error error := by
  change (reader input >>= fun p => next p.1 p.2) = .error error at h
  cases hreader : reader input with
  | error other =>
    rw [hreader] at h
    cases h
    exact .inl rfl
  | ok p =>
    rw [hreader] at h
    exact .inr ⟨p.1, p.2, rfl, h⟩

/-! ### Reading what was written -/

/-- The reader returns the value and leaves everything after the bytes. -/
def Reads (reader : Reader ε α) (bytes : Bytes) (a : α) : Prop :=
  ∀ rest, reader (bytes ++ rest) = .ok (a, rest)

theorem reads_pure (a : α) : Reads (pure a : Reader ε α) [] a := fun _ => rfl

theorem Reads.bind {reader : Reader ε α} {next : α → Reader ε β} {first second : Bytes} {a : α}
    {b : β} (hfirst : Reads reader first a) (hsecond : Reads (next a) second b) :
    Reads (reader >>= next) (first ++ second) b := by
  intro rest
  have hreader := hfirst (second ++ rest)
  rw [List.append_assoc]
  change (reader (first ++ (second ++ rest)) >>= fun p => next p.1 p.2) = _
  rw [hreader]
  exact hsecond rest

/-- The last part of a composed value. -/
theorem Reads.last {reader : Reader ε α} {next : α → Reader ε β} {bytes : Bytes} {a : α} {b : β}
    (hbytes : Reads reader bytes a) (hnext : Reads (next a) [] b) :
    Reads (reader >>= next) bytes b := by
  have h := hbytes.bind hnext
  rw [List.append_nil] at h
  exact h

theorem Reads.map {reader : Reader ε α} {bytes : Bytes} {a : α} (f : α → β)
    (h : Reads reader bytes a) : Reads (f <$> reader) bytes (f a) := by
  intro rest
  change (reader (bytes ++ rest) >>= fun p => pure (f p.1, p.2)) = _
  rw [h rest]
  rfl

theorem reads_take (short : ε) {n : Nat} {bytes : Bytes} (h : bytes.length = n) :
    Reads (take short n) bytes bytes := by
  intro rest
  simp [take, ← h]

theorem reads_number (short : ε) {width n : Nat} (h : n < limit width) :
    Reads (number short width) (littleEndian width n) n := by
  have hvalue := (reads_take short (length_littleEndian width n)).map value
  rw [value_littleEndian_of_lt h] at hvalue
  exact hvalue

theorem reads_uint32 (short : ε) (word : UInt32) :
    Reads (uint32 short) (ofUInt32 word) word := by
  have hword := (reads_number short (toNat_lt_limit word)).map UInt32.ofNat
  rw [UInt32.ofNat_toNat] at hword
  exact hword

theorem reads_times {item : Reader ε α} {itemBytes : α → Bytes} {items : List α}
    (h : ∀ a ∈ items, Reads item (itemBytes a) a) :
    Reads (times item items.length) (items.flatMap itemBytes) items := by
  induction items with
  | nil => exact reads_pure []
  | cons a items ih =>
    have hitems := ih fun b hb => h b (List.mem_cons_of_mem a hb)
    exact (h a List.mem_cons_self).bind (hitems.last (reads_pure (a :: items)))

/-! ### What a reader may return -/

/-- Every value that the reader returns has the property. -/
def Returns (reader : Reader ε α) (holds : α → Prop) : Prop :=
  ∀ input a rest, reader input = .ok (a, rest) → holds a

theorem returns_any (reader : Reader ε α) : Returns reader fun _ => True :=
  fun _ _ _ _ => trivial

theorem returns_pure {holds : α → Prop} {a : α} (h : holds a) :
    Returns (pure a : Reader ε α) holds := by
  intro input b rest hpure
  cases hpure
  exact h

theorem returns_fail {holds : α → Prop} (error : ε) : Returns (fail error) holds := by
  intro input a rest h
  cases h

theorem Returns.bind {reader : Reader ε α} {next : α → Reader ε β} {holds : α → Prop}
    {concluded : β → Prop} (hreader : Returns reader holds)
    (hnext : ∀ a, holds a → Returns (next a) concluded) : Returns (reader >>= next) concluded := by
  intro input b rest h
  obtain ⟨a, middle, ha, hb⟩ := bind_eq_ok h
  exact hnext a (hreader input a middle ha) middle b rest hb

/-- A composition of readers, when nothing is known of the first. -/
theorem returns_bind {reader : Reader ε α} {next : α → Reader ε β} {holds : β → Prop}
    (h : ∀ a, Returns (next a) holds) : Returns (reader >>= next) holds :=
  (returns_any reader).bind fun a _ => h a

theorem returns_take (short : ε) (n : Nat) :
    Returns (take short n) fun bytes => bytes.length = n := by
  intro input bytes rest h
  rw [take] at h
  split at h
  · cases h
    assumption
  · cases h

theorem returns_number (short : ε) (width : Nat) :
    Returns (number short width) fun n => n < limit width := by
  refine (returns_take short width).bind fun bytes hlength => returns_pure ?_
  rw [← hlength]
  exact value_lt bytes

/-! ### How a reader may fail -/

/-- Every error with which the reader fails has the property. -/
def Fails (reader : Reader ε α) (holds : ε → Prop) : Prop :=
  ∀ input error, reader input = .error error → holds error

variable {holds : ε → Prop}

theorem fails_pure (a : α) : Fails (pure a : Reader ε α) holds := by
  intro input error h
  cases h

theorem fails_fail {error : ε} (h : holds error) : Fails (fail error : Reader ε α) holds := by
  intro input other hfail
  cases hfail
  exact h

/-- The second reader goes on with what the first may return. -/
theorem Fails.bind {reader : Reader ε α} {next : α → Reader ε β} {given : α → Prop}
    (hreader : Fails reader holds) (hgiven : Returns reader given)
    (hnext : ∀ a, given a → Fails (next a) holds) : Fails (reader >>= next) holds := by
  intro input error h
  rcases bind_eq_error h with hfirst | ⟨a, middle, hfirst, hsecond⟩
  · exact hreader input error hfirst
  · exact hnext a (hgiven input a middle hfirst) middle error hsecond

/-- A composition of readers, when the values of the first do not matter. -/
theorem Fails.and_then {reader : Reader ε α} {next : α → Reader ε β} (hreader : Fails reader holds)
    (hnext : ∀ a, Fails (next a) holds) : Fails (reader >>= next) holds :=
  hreader.bind (returns_any reader) fun a _ => hnext a

theorem Fails.map {reader : Reader ε α} (h : Fails reader holds) (f : α → β) :
    Fails (f <$> reader) holds :=
  h.and_then fun a => fails_pure (f a)

theorem fails_take {short : ε} (h : holds short) (n : Nat) : Fails (take short n) holds := by
  intro input error htake
  rw [take] at htake
  split at htake
  · cases htake
  · cases htake
    exact h

theorem fails_number {short : ε} (h : holds short) (width : Nat) :
    Fails (number short width) holds :=
  (fails_take h width).map value

theorem fails_uint32 {short : ε} (h : holds short) : Fails (uint32 short) holds :=
  (fails_number h 4).map UInt32.ofNat

theorem fails_times {item : Reader ε α} (h : Fails item holds) (count : Nat) :
    Fails (times item count) holds := by
  induction count with
  | zero => exact fails_pure []
  | succ count ih =>
    apply h.and_then
    intro head
    exact ih.and_then fun tail => fails_pure (head :: tail)

end Reader

end SymbolSearch.Bytes

namespace SymbolSearch

theorem Bytes.toList_loop_eq (bytes : ByteArray) (i : Nat) (read : Bytes) :
    ByteArray.toList.loop bytes i read = read.reverse ++ bytes.data.toList.drop i := by
  fun_induction ByteArray.toList.loop bytes i read with
  | case1 i read h ih =>
    have hi : i < bytes.data.toList.length := h
    have hget : bytes.get! i = bytes.data.toList[i] := by
      rw [ByteArray.get!, getElem!_pos bytes.data i h]
      rfl
    rw [ih, List.drop_eq_getElem_cons hi, hget, List.reverse_cons, List.append_assoc]
    rfl
  | case2 i read h =>
    have hlength : bytes.data.toList.length ≤ i := Nat.le_of_not_lt h
    rw [List.drop_eq_nil_of_le hlength, List.append_nil]

theorem Bytes.ofString_eq (text : String) : ofString text = text.toUTF8.data.toList :=
  toList_loop_eq _ 0 []

theorem Bytes.length_ofString (text : String) : (ofString text).length = text.utf8ByteSize := by
  rw [ofString_eq]
  rfl

theorem Bytes.ofString_eq_flatMap (text : String) :
    ofString text = text.toList.flatMap String.utf8EncodeChar := by
  rw [ofString_eq, String.toUTF8_eq_toByteArray, ← String.utf8Encode_toList]
  exact List.toList_data_toByteArray

theorem Bytes.length_toList_le (text : String) : text.toList.length ≤ (ofString text).length := by
  rw [ofString_eq_flatMap]
  induction text.toList with
  | nil => exact Nat.le_refl 0
  | cons c rest ih =>
    have := c.utf8Size_pos
    rw [List.flatMap_cons, List.length_append, List.length_cons, String.length_utf8EncodeChar]
    omega

theorem Bytes.length_ofString_le (text : String) :
    (ofString text).length ≤ 4 * text.toList.length := by
  rw [ofString_eq_flatMap]
  induction text.toList with
  | nil => exact Nat.le_refl 0
  | cons c rest ih =>
    have := c.utf8Size_le_four
    rw [List.flatMap_cons, List.length_append, List.length_cons, String.length_utf8EncodeChar]
    omega

/-- A text is recovered from its bytes. -/
theorem Text.utf8?_ofString (text : String) : utf8? (Bytes.ofString text) = some text := by
  have hbytes : (Bytes.ofString text).toByteArray = text.toUTF8 := by
    rw [Bytes.ofString_eq]
    exact ByteArray.ext (List.data_toByteArray.trans Array.toArray_toList)
  have hvalid : text.toUTF8.IsValidUTF8 := text.isValidUTF8
  rw [utf8?, hbytes, String.fromUTF8?, dif_pos hvalid]
  rfl

theorem Bytes.ofString_injective {text other : String} (h : ofString text = ofString other) :
    text = other := by
  have hread := Text.utf8?_ofString text
  rw [h, Text.utf8?_ofString] at hread
  exact (Option.some.inj hread).symm

end SymbolSearch
