import SymbolSearch.Proofs.Checks
import SymbolSearch.Proofs.Codec.Consumed
import SymbolSearch.Proofs.Wire.RoundTrip

/-!
# The one frame of a message

Frames that are accepted and messages that can be put into a frame correspond to each other. Whoever
sends the bytes, an accepted frame is the one that its message is put into; and a message can be put
into a frame exactly if it keeps the limits of the protocol and its parts fit into one.
-/

namespace SymbolSearch

/-! ### Limits -/

/-- No text of the segment is too long, and it does not have too many parameters. -/
def KeySegment.KeepsLimits (segment : KeySegment) : Prop :=
  segment.name.utf8ByteSize ≤ 16384 ∧ segment.parameters.length ≤ 256
    ∧ ∀ parameter ∈ segment.parameters, parameter.utf8ByteSize ≤ 16384

def Descriptor.KeepsLimits (descriptor : Descriptor) : Prop :=
  descriptor.key.segments.length ≤ 256
    ∧ ∀ segment ∈ descriptor.key.segments, segment.KeepsLimits

namespace Message

open Checks

/-- What the protocol allows a message to hold. -/
def KeepsLimits : Message → Prop
  | find request => request.query.text.utf8ByteSize ≤ 16384
  | declarations symbols => symbols.length ≤ 1000000 ∧ ∀ symbol ∈ symbols, symbol.KeepsLimits
  | error text => text.utf8ByteSize ≤ 16384

theorem checkLength_eq_ok_iff {what : Limited} {length : Nat} :
    checkLength what length = .ok () ↔ length ≤ what.max := by
  rw [checkLength]
  split
  · simp [*]
  · simp [*]

theorem checkText_eq_ok_iff {what : Limited} {text : String} :
    checkText what text = .ok () ↔ text.utf8ByteSize ≤ what.max := checkLength_eq_ok_iff

theorem checkSegment_eq_ok_iff {segment : KeySegment} :
    checkSegment segment = .ok () ↔ segment.KeepsLimits := by
  rw [checkSegment, bind_eq_ok_iff, bind_eq_ok_iff, checkText_eq_ok_iff, checkLength_eq_ok_iff,
    forM_eq_ok_iff]
  simp only [checkText_eq_ok_iff]
  rfl

theorem checkDescriptor_eq_ok_iff {descriptor : Descriptor} :
    checkDescriptor descriptor = .ok () ↔ descriptor.KeepsLimits := by
  rw [checkDescriptor, bind_eq_ok_iff, checkLength_eq_ok_iff, forM_eq_ok_iff]
  simp only [checkSegment_eq_ok_iff]
  rfl

theorem checkLimits_eq_ok_iff {message : Message} :
    message.checkLimits = .ok () ↔ message.KeepsLimits := by
  cases message with
  | find request => exact checkText_eq_ok_iff
  | declarations symbols =>
    rw [checkLimits, bind_eq_ok_iff, checkLength_eq_ok_iff, forM_eq_ok_iff]
    simp only [checkDescriptor_eq_ok_iff]
    rfl
  | error text => exact checkText_eq_ok_iff

end Message

namespace Wire

open Bytes.Reader

/-! ### Parts of messages -/

section

variable {α : Type}

theorem consumes_readNumber (width : Nat) :
    Consumes (readNumber width) fun n bytes =>
      bytes = Bytes.littleEndian width n ∧ n < Bytes.limit width :=
  consumes_number _ width

theorem consumes_readWord : Consumes readWord fun word bytes => bytes = Bytes.ofUInt32 word :=
  consumes_uint32 _

theorem consumes_readVariant (count : Nat) (ofTag? : Nat → Option α) :
    Consumes (readVariant count ofTag?) fun a bytes =>
      ∃ tag, ofTag? tag = some a ∧ bytes = tagBytes tag := by
  refine (consumes_readNumber 4).bind fun tag first hfirst => ?_
  cases htag : ofTag? tag with
  | none => exact consumes_fail _
  | some a => exact consumes_pure ⟨tag, htag, by rw [hfirst.1, List.append_nil]; rfl⟩

theorem consumes_readText : Consumes readText fun text bytes => bytes = textBytes text := by
  refine (consumes_readNumber 8).bind fun length first hfirst => ?_
  refine (consumes_take _ length).bind fun taken second hsecond => ?_
  obtain ⟨rfl, rfl⟩ := hsecond
  cases htext : Text.utf8? second with
  | none => exact consumes_fail _
  | some text =>
    apply consumes_pure
    rw [textBytes, Text.ofString_of_utf8? htext, hfirst.1, List.append_nil]
    rfl

theorem consumes_readList {item : Reader α} {write : α → Bytes}
    (hitem : Consumes item fun a bytes => bytes = write a) :
    Consumes (readList item) fun items bytes => bytes = listBytes write items := by
  refine (consumes_readNumber 8).bind fun count first hfirst => ?_
  apply (consumes_times hitem count).mono
  rintro items bytes ⟨rfl, rfl⟩
  rw [listBytes, hfirst.1]
  rfl

end

theorem consumes_readSegment :
    Consumes readSegment fun segment bytes => bytes = segmentBytes segment := by
  refine (consumes_readVariant _ _).bind fun kind first hkind => ?_
  refine consumes_readText.bind fun name second hname => ?_
  refine consumes_readWord.bind fun arity third harity => ?_
  refine (consumes_readList consumes_readText).bind fun parameters fourth hparameters => ?_
  apply consumes_pure
  obtain ⟨tag, htag, rfl⟩ := hkind
  rw [segmentBytes, SymbolKind.tag_of_ofTag? htag, hname, harity, hparameters, List.append_nil]

theorem consumes_readDescriptor :
    Consumes readDescriptor fun descriptor bytes => bytes = descriptorBytes descriptor := by
  refine (consumes_readList consumes_readSegment).bind fun segments first hsegments => ?_
  refine (consumes_readVariant _ _).bind fun origin second horigin => ?_
  refine consumes_readWord.bind fun project third hproject => ?_
  apply consumes_pure
  obtain ⟨tag, htag, rfl⟩ := horigin
  rw [descriptorBytes, SymbolOrigin.tag_of_ofTag? htag, hsegments, hproject, List.append_nil]

/-- Whether there is a project is told by one byte, which has no third value. -/
theorem consumes_readProject :
    Consumes readProject fun project? bytes => bytes = projectBytes project? := by
  refine (consumes_readNumber 1).bind fun presence first hfirst => ?_
  split
  · rename_i hpresence
    apply consumes_pure
    rw [hfirst.1, hpresence]
    rfl
  · split
    · rename_i hpresence
      refine consumes_readWord.bind fun word second hsecond => consumes_pure ?_
      rw [hfirst.1, hpresence, hsecond, List.append_nil]
      rfl
    · exact consumes_fail _

theorem bits_of_ofByte {n : Nat} {filter : SymbolFilter} (hn : n < Bytes.limit 1)
    (h : SymbolFilter.ofByte (UInt8.ofNat n) = .ok filter) : filter.bits = n := by
  have hbyte : (UInt8.ofNat n).toNat = n := by
    rw [UInt8.toNat_ofNat']
    exact Nat.mod_eq_of_lt hn
  rw [SymbolFilter.ofByte, hbyte] at h
  split at h
  · rename_i hbits
    cases h
    exact SymbolFilter.bits_of_ofBits? hbits
  · cases h

theorem consumes_readFilter : Consumes readFilter fun filter bytes =>
    bytes = Bytes.littleEndian 1 filter.bits := by
  refine (consumes_readNumber 1).bind fun n first hfirst => ?_
  split
  · rename_i filter hfilter
    apply consumes_pure
    rw [hfirst.1, bits_of_ofByte hfirst.2 hfilter, List.append_nil]
  · exact consumes_fail _

theorem consumes_readChecksum :
    Consumes readChecksum fun checksum bytes => bytes = checksum.toBytes := by
  refine (consumes_take _ 32).bind fun taken first hfirst => ?_
  split
  · rename_i checksum hchecksum
    apply consumes_pure
    rw [hfirst.1, Fingerprint.toBytes_of_ofBytes? hchecksum, List.append_nil]
  · exact consumes_fail _

theorem query_of_ofTag? {tag : Nat} {query : String → NameQuery} (h : queryOfTag? tag = some query)
    (text : String) : queryTag (query text) = tag ∧ (query text).text = text := by
  match tag with
  | 0 | 1 | 2 => cases h; exact ⟨rfl, rfl⟩

theorem consumes_readRequest :
    Consumes readRequest fun request bytes => bytes = requestBytes request := by
  refine consumes_readChecksum.bind fun checksum first hchecksum => ?_
  refine consumes_readProject.bind fun project? second hproject => ?_
  refine (consumes_readVariant _ _).bind fun query third hquery => ?_
  refine consumes_readText.bind fun text fourth htext => ?_
  refine consumes_readFilter.bind fun filter fifth hfilter => ?_
  refine (consumes_readVariant _ _).bind fun scope sixth hscope => ?_
  apply consumes_pure
  obtain ⟨tag, htag, rfl⟩ := hquery
  obtain ⟨tag', htag', rfl⟩ := hscope
  obtain ⟨hqueryTag, hqueryText⟩ := query_of_ofTag? htag text
  rw [requestBytes, hqueryTag, hqueryText, SearchScope.tag_of_ofTag? htag', hchecksum, hproject,
    htext, hfilter, List.append_nil]

theorem consumes_readMessage :
    Consumes readMessage fun message bytes => bytes = messageBytes message := by
  refine (consumes_readVariant _ _).bind fun reader first hfirst => ?_
  obtain ⟨tag, htag, rfl⟩ := hfirst
  match tag with
  | 0 =>
    cases htag
    apply consumes_readRequest.map
    rintro request bytes rfl
    rfl
  | 1 =>
    cases htag
    apply (consumes_readList consumes_readDescriptor).map
    rintro symbols bytes rfl
    rfl
  | 2 =>
    cases htag
    apply consumes_readText.map
    rintro text bytes rfl
    rfl

/-- Whatever the version is, the parts of the message follow it. -/
theorem consumes_payload : Consumes (readNumber 4 >>= fun _ => readMessage) fun message bytes =>
    ∃ found, found < Bytes.limit 4 ∧ bytes = Bytes.ofCount found ++ messageBytes message := by
  refine (consumes_readNumber 4).bind fun found first hfirst => ?_
  apply consumes_readMessage.mono
  rintro message bytes rfl
  exact ⟨found, hfirst.2, by rw [hfirst.1]; rfl⟩

/-! ### Frames -/

/-- The only bytes before a payload are its length. -/
theorem decodeFrame_eq_ok {frame payload : Bytes} (h : decodeFrame frame = .ok payload) :
    payload.length ≤ maxPayload ∧ frame = Bytes.ofCount payload.length ++ payload := by
  rw [decodeFrame] at h
  split at h
  · cases h
  rename_i hlength
  simp only at h
  split at h
  · cases h
  rename_i hmax
  split at h
  · rename_i hdeclared
    cases h
    have htake : (frame.take 4).length = 4 := List.length_take_of_le (Nat.not_lt.1 hlength)
    have hcount := Bytes.littleEndian_value (frame.take 4)
    rw [htake, hdeclared] at hcount
    refine ⟨hdeclared ▸ Nat.not_lt.1 hmax, ?_⟩
    rw [Bytes.ofCount, hcount, List.take_append_drop]
  · cases h

theorem checkVersion_eq_ok {payload : Bytes} (h : checkVersion payload = .ok ()) :
    payload.length < 4 ∨ Bytes.value (payload.take 4) = version := by
  rw [checkVersion] at h
  split at h
  · assumption
  · cases h

/-- What an accepted frame went through. -/
theorem decode_eq_ok {frame : Bytes} {message : Message} (h : decode frame = .ok message) :
    ∃ payload, decodeFrame frame = .ok payload ∧ checkVersion payload = .ok ()
      ∧ (readNumber 4 >>= fun _ => readMessage) payload = .ok (message, [])
      ∧ message.checkLimits = .ok () := by
  rw [decode] at h
  cases hpayload : decodeFrame frame with
  | error fault => rw [hpayload] at h; cases h
  | ok payload =>
    rw [hpayload] at h
    cases hversion : checkVersion payload with
    | error fault => simp only [bind, Except.bind, hversion] at h; cases h
    | ok _ =>
      simp only [bind, Except.bind, hversion] at h
      split at h
      · cases h
      · cases h
      · rename_i read hread
        cases hlimits : Message.checkLimits read with
        | error fault => rw [hlimits] at h; cases h
        | ok _ =>
          rw [hlimits] at h
          cases h
          exact ⟨payload, rfl, hversion, hread, hlimits⟩

/-- An accepted frame is the one that its message is put into. -/
theorem encode_of_decode {frame : Bytes} {message : Message} (h : decode frame = .ok message) :
    encode message = .ok frame := by
  obtain ⟨payload, hframe, hversion, hread, hlimits⟩ := decode_eq_ok h
  obtain ⟨hlength, rfl⟩ := decodeFrame_eq_ok hframe
  obtain ⟨bytes, hbytes, found, hfound, rfl⟩ := consumes_payload payload message [] hread
  rw [List.append_nil] at hbytes
  subst hbytes
  have hwidth : (Bytes.ofCount found).length = 4 := Bytes.length_littleEndian 4 found
  have hshort : ¬ (Bytes.ofCount found ++ messageBytes message).length < 4 := by
    rw [List.length_append, hwidth]
    omega
  obtain rfl : found = version := by
    have hvalue := (checkVersion_eq_ok hversion).resolve_left hshort
    rw [List.take_left' hwidth, Bytes.ofCount, Bytes.value_littleEndian_of_lt hfound] at hvalue
    exact hvalue
  rw [encode, hlimits]
  change encodeFrame _ = _
  rw [encodeFrame, if_pos hlength]

/-- A message can be put into a frame if it keeps the limits and there is room for its parts. The
frame holds the length of the rest, the version and the parts, and nothing else. -/
theorem encode_eq_ok_iff {message : Message} {frame : Bytes} :
    encode message = .ok frame ↔ message.KeepsLimits
      ∧ (messageBytes message).length + 4 ≤ maxPayload
      ∧ frame = Bytes.ofCount ((messageBytes message).length + 4)
        ++ (Bytes.ofCount version ++ messageBytes message) := by
  have hlength : (Bytes.ofCount version ++ messageBytes message).length
      = (messageBytes message).length + 4 := by
    rw [List.length_append, Nat.add_comm]
    rfl
  rw [← Message.checkLimits_eq_ok_iff, ← hlength]
  constructor
  · exact encode_eq_ok
  · rintro ⟨hlimits, hmax, rfl⟩
    rw [encode, hlimits]
    exact if_pos hmax

/-- Frames that are accepted and messages that can be put into a frame correspond to each other, one
to one: the messages are those that keep the limits, and each has one frame. -/
theorem decode_eq_ok_iff_encode :
    (∀ (frame : Bytes) (message : Message), decode frame = .ok message ↔ encode message = .ok frame)
    ∧ ∀ (message : Message) (frame : Bytes), encode message = .ok frame ↔ message.KeepsLimits
      ∧ (messageBytes message).length + 4 ≤ 64 * 1024 * 1024
      ∧ frame = Bytes.ofCount ((messageBytes message).length + 4)
        ++ (Bytes.ofCount 1 ++ messageBytes message) := by
  refine ⟨fun frame message => ⟨encode_of_decode, decode_of_encode⟩, fun message frame => ?_⟩
  exact encode_eq_ok_iff

end Wire

end SymbolSearch
