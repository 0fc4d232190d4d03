import SymbolSearch.Proofs.Codec.Reader
import SymbolSearch.Wire.Codec

/-!
# Frames round trip

A message that was put into a frame is recovered from it. What fits into a frame is short enough for
all lengths in it to keep their eight bytes.
-/

namespace SymbolSearch

/-- Items of at least one byte each are no more than their bytes. -/
theorem Bytes.length_le_flatMap {α : Type} {write : α → Bytes} (hwrite : ∀ a, write a ≠ [])
    (items : List α) : items.length ≤ (items.flatMap write).length := by
  induction items with
  | nil => exact Nat.le_refl 0
  | cons a items ih =>
    have ha := List.length_pos_iff.2 (hwrite a)
    rw [List.flatMap_cons, List.length_append, List.length_cons]
    omega

theorem Bytes.length_le_of_mem {α : Type} (write : α → Bytes) {items : List α} {a : α}
    (h : a ∈ items) : (write a).length ≤ (items.flatMap write).length := by
  obtain ⟨before, after, rfl⟩ := List.append_of_mem h
  simp only [List.flatMap_append, List.flatMap_cons, List.length_append]
  omega

namespace Wire

open Bytes.Reader

/-- The reader recovers everything that is written into fewer bytes than a length can count. -/
def Recovers {α : Type} (reader : Reader α) (write : α → Bytes) : Prop :=
  ∀ a, (write a).length < Bytes.limit 8 → Reads reader (write a) a

variable {α : Type}

theorem reads_readNumber {width n : Nat} (h : n < Bytes.limit width) :
    Reads (readNumber width) (Bytes.littleEndian width n) n :=
  reads_number _ h

theorem reads_readWord (word : UInt32) : Reads readWord (Bytes.ofUInt32 word) word :=
  reads_uint32 _ word

theorem reads_readVariant (count : Nat) {ofTag? : Nat → Option α} {tag : Nat} {a : α}
    (htag : tag < Bytes.limit 4) (h : ofTag? tag = some a) :
    Reads (readVariant count ofTag?) (tagBytes tag) a := by
  refine (reads_readNumber htag).last ?_
  rw [h]
  exact reads_pure a

theorem recovers_readText : Recovers readText textBytes := by
  intro text h
  rw [textBytes, List.length_append] at h
  refine (reads_readNumber (show _ < Bytes.limit 8 by omega)).bind ((reads_take _ rfl).last ?_)
  rw [Text.utf8?_ofString]
  exact reads_pure text

theorem recovers_readList {item : Reader α} {write : α → Bytes} (hitem : Recovers item write)
    (hwrite : ∀ a, write a ≠ []) : Recovers (readList item) (listBytes write) := by
  intro items h
  rw [listBytes, List.length_append] at h
  have hlength := Bytes.length_le_flatMap hwrite items
  refine (reads_readNumber (show _ < Bytes.limit 8 by omega)).bind (reads_times fun a ha => ?_)
  have hbytes := Bytes.length_le_of_mem write ha
  exact hitem a (by omega)

theorem textBytes_ne_nil (text : String) : textBytes text ≠ [] := by
  simp [textBytes, Bytes.ofLength, Bytes.littleEndian]

theorem recovers_readSegment : Recovers readSegment segmentBytes := by
  intro segment h
  simp only [segmentBytes, List.length_append] at h
  have htag : segment.kind.tag < Bytes.limit 4 := by cases segment.kind <;> decide
  refine (reads_readVariant _ htag (SymbolKind.ofTag?_tag _)).bind ?_
  refine (recovers_readText segment.name (by omega)).bind ?_
  refine (reads_readWord _).bind ?_
  exact (recovers_readList recovers_readText textBytes_ne_nil segment.parameters (by omega)).last
    (reads_pure segment)

theorem segmentBytes_ne_nil (segment : KeySegment) : segmentBytes segment ≠ [] := by
  simp [segmentBytes, tagBytes, Bytes.ofCount, Bytes.littleEndian]

theorem recovers_readDescriptor : Recovers readDescriptor descriptorBytes := by
  intro descriptor h
  simp only [descriptorBytes, List.length_append] at h
  have htag : descriptor.key.origin.tag < Bytes.limit 4 := by
    cases descriptor.key.origin <;> decide
  refine (recovers_readList recovers_readSegment segmentBytes_ne_nil _ (by omega)).bind ?_
  refine (reads_readVariant _ htag (SymbolOrigin.ofTag?_tag _)).bind ?_
  exact (reads_readWord _).last (reads_pure descriptor)

theorem descriptorBytes_ne_nil (descriptor : Descriptor) : descriptorBytes descriptor ≠ [] := by
  simp [descriptorBytes, listBytes, Bytes.ofLength, Bytes.littleEndian]

theorem reads_readProject (project? : Option ProjectId) :
    Reads readProject (projectBytes project?) project? := by
  cases project? with
  | none => exact (reads_readNumber (show 0 < Bytes.limit 1 by decide)).last (reads_pure none)
  | some project =>
    exact (reads_readNumber (show 1 < Bytes.limit 1 by decide)).bind
      ((reads_readWord project.number).last (reads_pure (some project)))

theorem reads_readFilter (filter : SymbolFilter) :
    Reads readFilter (Bytes.littleEndian 1 filter.bits) filter := by
  have hbits : filter.bits < Bytes.limit 1 := by
    obtain ⟨a, b, c⟩ := filter
    cases a <;> cases b <;> cases c <;> decide
  have hbyte : SymbolFilter.ofByte (UInt8.ofNat filter.bits) = .ok filter := by
    obtain ⟨a, b, c⟩ := filter
    cases a <;> cases b <;> cases c <;> rfl
  refine (reads_readNumber hbits).last ?_
  rw [hbyte]
  exact reads_pure filter

theorem reads_readChecksum (checksum : Fingerprint) :
    Reads readChecksum checksum.toBytes checksum := by
  refine (reads_take _ checksum.length_toBytes).last ?_
  rw [Fingerprint.ofBytes?_toBytes]
  exact reads_pure checksum

theorem recovers_readRequest : Recovers readRequest requestBytes := by
  intro request h
  simp only [requestBytes, List.length_append] at h
  have hquery : queryTag request.query < Bytes.limit 4 := by
    cases request.query <;> simp only [queryTag] <;> decide
  have hscope : request.scope.tag < Bytes.limit 4 := by cases request.scope <;> decide
  refine (reads_readChecksum _).bind ?_
  refine (reads_readProject _).bind ?_
  obtain ⟨query, hquery?, htext⟩ : ∃ query, queryOfTag? (queryTag request.query) = some query
      ∧ query request.query.text = request.query := by
    cases request.query <;> exact ⟨_, rfl, rfl⟩
  refine (reads_readVariant _ hquery hquery?).bind ?_
  refine (recovers_readText request.query.text (by omega)).bind ?_
  refine (reads_readFilter _).bind ?_
  refine (reads_readVariant _ hscope (SearchScope.ofTag?_tag _)).last ?_
  rw [htext]
  exact reads_pure request

theorem reads_readMessage {tag : Nat} {reader : Reader Message} {bytes : Bytes}
    {message : Message} (htag : tag < Bytes.limit 4) (hreader : messageOfTag? tag = some reader)
    (h : Reads reader bytes message) : Reads readMessage (tagBytes tag ++ bytes) message :=
  (reads_readVariant 3 htag hreader).bind h

theorem recovers_readMessage : Recovers readMessage messageBytes := by
  intro message h
  cases message with
  | find request =>
    simp only [messageBytes, List.length_append] at h
    exact reads_readMessage (by decide) rfl
      ((recovers_readRequest request (by omega)).map Message.find)
  | declarations symbols =>
    simp only [messageBytes, List.length_append] at h
    have hsymbols := recovers_readList recovers_readDescriptor descriptorBytes_ne_nil symbols
      (by omega)
    exact reads_readMessage (by decide) rfl (hsymbols.map Message.declarations)
  | error text =>
    simp only [messageBytes, List.length_append] at h
    exact reads_readMessage (by decide) rfl ((recovers_readText text (by omega)).map Message.error)

/-! ### Frames -/

theorem decodeFrame_append {payload : Bytes} (h : payload.length ≤ maxPayload) :
    decodeFrame (Bytes.ofCount payload.length ++ payload) = .ok payload := by
  have hmax : maxPayload < Bytes.limit 4 := by decide
  have hlength : (Bytes.ofCount payload.length).length = 4 := Bytes.length_littleEndian 4 _
  have hvalue : (Bytes.ofCount payload.length).value = payload.length :=
    Bytes.value_littleEndian_of_lt (by omega)
  have htake : (Bytes.ofCount payload.length ++ payload).take 4 = Bytes.ofCount payload.length :=
    List.take_left' hlength
  have hdrop : (Bytes.ofCount payload.length ++ payload).drop 4 = payload :=
    List.drop_left' hlength
  have hframe : ¬ (Bytes.ofCount payload.length ++ payload).length < 4 := by
    rw [List.length_append, hlength]
    omega
  simp only [decodeFrame, htake, hdrop, hvalue]
  rw [if_neg hframe, if_neg (Nat.not_lt.2 h), if_pos trivial]

theorem checkVersion_append (rest : Bytes) :
    checkVersion (Bytes.ofCount version ++ rest) = .ok () := by
  have htake : (Bytes.ofCount version ++ rest).take 4 = Bytes.ofCount version :=
    List.take_left' rfl
  have hvalue : (Bytes.ofCount version).value = version := by decide
  simp only [checkVersion, htake, hvalue]
  rw [if_pos (.inr trivial)]

theorem encode_eq_ok {message : Message} {frame : Bytes} (h : encode message = .ok frame) :
    message.checkLimits = .ok ()
      ∧ (Bytes.ofCount version ++ messageBytes message).length ≤ maxPayload
      ∧ frame = Bytes.ofCount (Bytes.ofCount version ++ messageBytes message).length
        ++ (Bytes.ofCount version ++ messageBytes message) := by
  rw [encode] at h
  cases hlimits : message.checkLimits with
  | error fault => rw [hlimits] at h; cases h
  | ok _ =>
    rw [hlimits] at h
    change encodeFrame _ = .ok frame at h
    rw [encodeFrame] at h
    split at h
    · rename_i hlength
      cases h
      exact ⟨rfl, hlength, rfl⟩
    · cases h

/-- A message is recovered from the frame that it was put into. -/
theorem decode_of_encode {message : Message} {frame : Bytes} (h : encode message = .ok frame) :
    decode frame = .ok message := by
  obtain ⟨hlimits, hlength, rfl⟩ := encode_eq_ok h
  have hmax : maxPayload < Bytes.limit 8 := by decide
  have hbytes : (messageBytes message).length < Bytes.limit 8 := by
    rw [List.length_append] at hlength
    omega
  have hversion : Reads (readNumber 4) (Bytes.ofCount version) version :=
    reads_readNumber (by decide)
  have hmessage : Reads (readNumber 4 >>= fun _ => readMessage)
      (Bytes.ofCount version ++ messageBytes message) message :=
    hversion.bind (recovers_readMessage message hbytes)
  have hread := hmessage []
  rw [List.append_nil] at hread
  have hpayload : StateT.bind (readNumber 4) (fun _ => readMessage)
      (Bytes.ofCount version ++ messageBytes message) = .ok (message, []) := hread
  rw [decode, decodeFrame_append hlength]
  simp only [bind, Except.bind, checkVersion_append]
  simp only [hpayload, hlimits]
  rfl

/-- The frame of a message that is known to have one. -/
theorem encode_eq_getD {message : Message} (h : (encode message).isOk = true) :
    encode message = .ok ((encode message).toOption.getD []) := by
  cases hencoded : encode message with
  | error error =>
    rw [hencoded] at h
    cases h
  | ok frame => rfl

end Wire

end SymbolSearch
