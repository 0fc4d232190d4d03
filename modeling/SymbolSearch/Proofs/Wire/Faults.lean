import Mathlib.Data.Nat.Digits.Defs
import SymbolSearch.Proofs.Wire.Canonical

/-!
# Short texts of errors

What is wrong with a frame is told with a few numbers: those that were read, places in what was
read, and lengths. None of them is out of the range of lengths, so the text of an error is short
whatever bytes it is about, and always fits into a frame itself.
-/

namespace SymbolSearch

/-! ### The length of a text -/

namespace Text

/-- The text takes at most this many bytes. -/
def AtMost (size : Nat) (text : String) : Prop := text.utf8ByteSize ≤ size

variable {size other : Nat} {text rest : String}

theorem AtMost.mono (h : AtMost size text) (hle : size ≤ other) : AtMost other text :=
  Nat.le_trans h hle

theorem AtMost.append (h : AtMost size text) (hrest : AtMost other rest) :
    AtMost (size + other) (text ++ rest) := by
  rw [AtMost, String.utf8ByteSize_append]
  exact Nat.add_le_add h hrest

theorem atMost_self (text : String) : AtMost text.utf8ByteSize text := Nat.le_refl _

theorem AtMost.quoted (before after : String) (h : AtMost size text) :
    AtMost (before.utf8ByteSize + size + after.utf8ByteSize) (before ++ text ++ after) :=
  ((atMost_self before).append h).append (atMost_self after)

theorem atMost_length (text : String) : AtMost (4 * text.toList.length) text := by
  rw [AtMost, ← Bytes.length_ofString]
  exact Bytes.length_ofString_le text

/-- A number in the range of lengths has at most twenty digits. -/
theorem atMost_number {n : Nat} (h : n < Bytes.limit 8) : AtMost 80 (toString n) := by
  have hlimit : Bytes.limit 8 < 10 ^ 20 := by decide
  have hdigits : (toString n).length ≤ 20 := Nat.repr_length n 20 (by decide) (by omega)
  apply (atMost_length _).mono
  rw [String.length_toList]
  omega

theorem atMost_hex (bytes : Bytes) : AtMost (8 * bytes.length) (Bytes.hex bytes) := by
  have hlength : (Bytes.hex bytes).toList.length = 2 * bytes.length := by
    rw [Bytes.hex, String.toList_ofList, List.length_flatMap]
    simp [Nat.mul_comm]
  apply (atMost_length _).mono
  omega

end Text

/-! ### Faults of texts -/

namespace Text

theorem le_of_follow {read n : Nat} {ranges : List (UInt8 × UInt8)} {bytes : Bytes}
    (h : follow read ranges bytes = .ok n ∨ follow read ranges bytes = .error (some n)) :
    n ≤ read + bytes.length := by
  fun_induction follow read ranges bytes with
  | case1 read bytes =>
    rcases h with h | h
    · cases h
      omega
    · cases h
  | case2 read range ranges => rcases h with h | h <;> cases h
  | case3 read range ranges b rest hb ih =>
    have := ih h
    rw [List.length_cons]
    omega
  | case4 read range ranges b rest hb =>
    rcases h with h | h
    · cases h
    · cases h
      omega

/-- A fault lies within the bytes. -/
theorem le_of_utf8Fault? {index : Nat} {bytes : Bytes} {fault : Utf8Fault}
    (h : utf8Fault? index bytes = some fault) :
    fault.index + fault.length.getD 0 ≤ index + bytes.length := by
  fun_induction utf8Fault? index bytes with
  | case1 index => cases h
  | case2 index lead rest hlead =>
    cases h
    simp
  | case3 index lead rest ranges hlead length hfollow =>
    cases h
    cases length with
    | none => simp
    | some length =>
      have := le_of_follow (.inr hfollow)
      simp only [Option.getD_some, List.length_cons]
      omega
  | case4 index lead rest ranges hlead length hfollow ih =>
    have hrest := ih h
    have hlength := le_of_follow (.inl hfollow)
    rw [List.length_drop] at hrest
    rw [List.length_cons]
    omega

end Text

/-! ### What errors tell -/

/-- All that the text of the fault tells, apart from its wording, is short. -/
def WireFault.IsBrief : WireFault → Prop
  | .invalidText fault =>
    fault.index < Bytes.limit 8 ∧ ∀ length ∈ fault.length, length < Bytes.limit 8
  | .unknownVariant found count => found < Bytes.limit 8 ∧ count < Bytes.limit 8
  | .unknownPresence found => found < Bytes.limit 8
  | .invalidFilter fault => Text.AtMost 10 fault.text
  | .endOfInput | .textTooLong | .bytesLeft => True

def WireError.IsBrief : WireError → Prop
  | .malformed fault => fault.IsBrief
  | .frameTooLarge length => length < Bytes.limit 8
  | .lengthMismatch declared actual => declared < Bytes.limit 8 ∧ actual < Bytes.limit 8
  | .unsupportedVersion found => found < Bytes.limit 8
  | .limitExceeded fault => fault.length < Bytes.limit 8

section

open Text

theorem Text.Utf8Fault.atMost_message {fault : Utf8Fault} (hindex : fault.index < Bytes.limit 8)
    (hlength : ∀ length ∈ fault.length, length < Bytes.limit 8) : AtMost 250 fault.message := by
  have hindex := atMost_number hindex
  obtain ⟨index, _ | length⟩ := fault
  · exact ((atMost_self _).append hindex).mono (by decide)
  · have hlength := atMost_number (hlength length rfl)
    exact ((hlength.quoted _ _).append hindex).mono (by decide)

theorem WireFault.IsBrief.atMost_message {fault : WireFault} (brief : fault.IsBrief) :
    AtMost 300 fault.message := by
  cases fault with
  | endOfInput => exact (atMost_self _).mono (by decide)
  | textTooLong => exact (atMost_self _).mono (by decide)
  | bytesLeft => exact (atMost_self _).mono (by decide)
  | invalidText fault =>
    have hfault := fault.atMost_message brief.1 brief.2
    exact ((atMost_self _).append hfault).mono (by decide)
  | unknownVariant found count =>
    have hfound := atMost_number brief.1
    have hcount := atMost_number brief.2
    exact ((hfound.quoted _ _).append hcount).mono (by decide)
  | unknownPresence found =>
    have hfound := atMost_number brief
    exact ((atMost_self _).append hfound).mono (by decide)
  | invalidFilter fault =>
    have htext : AtMost 10 fault.text := brief
    exact (htext.quoted _ _).mono (by decide)

theorem Limited.atMost_describe (what : Limited) : AtMost 20 what.describe := by
  cases what <;> exact (atMost_self _).mono (by decide)

theorem Limited.max_lt (what : Limited) : what.max < Bytes.limit 8 := by
  cases what <;> decide

theorem WireError.IsBrief.atMost_message {error : WireError} (brief : error.IsBrief) :
    AtMost 400 error.message := by
  cases error with
  | malformed fault =>
    have hfault : AtMost 300 fault.message := WireFault.IsBrief.atMost_message brief
    exact ((atMost_self _).append hfault).mono (by decide)
  | frameTooLarge length =>
    have hlength := atMost_number brief
    have hmax : AtMost 80 (toString Wire.maxPayload) := atMost_number (by decide)
    exact (((hlength.quoted _ _).append hmax).append (atMost_self _)).mono (by decide)
  | lengthMismatch declared actual =>
    have hdeclared := atMost_number brief.1
    have hactual := atMost_number brief.2
    exact (((hdeclared.quoted _ _).append hactual).append (atMost_self _)).mono (by decide)
  | unsupportedVersion found =>
    have hfound := atMost_number brief
    have hversion : AtMost 80 (toString Wire.version) := atMost_number (by decide)
    exact (((hfound.quoted _ _).append hversion).append (atMost_self _)).mono (by decide)
  | limitExceeded fault =>
    have hwhat := fault.what.atMost_describe
    have hlength := atMost_number brief
    have hmax := atMost_number fault.what.max_lt
    exact ((((hwhat.append (atMost_self _)).append hlength).append (atMost_self _)).append
      hmax |>.append (atMost_self _)).mono (by decide)

end

namespace Wire

open Bytes.Reader

/-! ### What readers fail with -/

section

variable {α : Type}

theorem fails_readNumber (width : Nat) : Fails (readNumber width) WireFault.IsBrief :=
  fails_number trivial width

theorem fails_readWord : Fails readWord WireFault.IsBrief := fails_uint32 trivial

theorem fails_readVariant {count : Nat} (hcount : count < Bytes.limit 8) (ofTag? : Nat → Option α) :
    Fails (readVariant count ofTag?) WireFault.IsBrief := by
  refine (fails_readNumber 4).bind (returns_number _ 4) fun tag htag => ?_
  cases ofTag? tag with
  | some a => exact fails_pure a
  | none => exact fails_fail ⟨htag.trans (by decide), hcount⟩

theorem fails_readText : Fails readText WireFault.IsBrief := by
  refine (fails_readNumber 8).bind (returns_number _ 8) fun length hlength => ?_
  have htake : Fails (take .textTooLong length) WireFault.IsBrief := fails_take trivial length
  refine htake.bind (returns_take _ length) fun bytes hbytes => ?_
  cases Text.utf8? bytes with
  | some text => exact fails_pure text
  -- The bytes are as many as a number of eight bytes says, however long the input is.
  | none =>
    apply fails_fail
    cases hfault : Text.utf8Fault? 0 bytes with
    | none =>
      refine ⟨(by decide : 0 < Bytes.limit 8), fun length hnone => ?_⟩
      cases hnone
    | some fault =>
      have hwithin := Text.le_of_utf8Fault? hfault
      refine ⟨(by omega : fault.index < Bytes.limit 8), fun length hsome => ?_⟩
      have hread : fault.length = some length := hsome
      rw [hread, Option.getD_some] at hwithin
      omega

theorem fails_readList {item : Reader α} (h : Fails item WireFault.IsBrief) :
    Fails (readList item) WireFault.IsBrief :=
  (fails_readNumber 8).and_then fun count => fails_times h count

end

theorem fails_readSegment : Fails readSegment WireFault.IsBrief := by
  refine (fails_readVariant (by decide) _).and_then fun kind => ?_
  refine fails_readText.and_then fun name => ?_
  refine fails_readWord.and_then fun arity => ?_
  exact (fails_readList fails_readText).and_then fun parameters => fails_pure _

theorem fails_readDescriptor : Fails readDescriptor WireFault.IsBrief := by
  refine (fails_readList fails_readSegment).and_then fun segments => ?_
  refine (fails_readVariant (by decide) _).and_then fun origin => ?_
  exact fails_readWord.and_then fun project => fails_pure _

theorem fails_readProject : Fails readProject WireFault.IsBrief := by
  refine (fails_readNumber 1).bind (returns_number _ 1) fun presence hpresence => ?_
  split
  · exact fails_pure none
  · split
    · exact fails_readWord.and_then fun number => fails_pure _
    · exact fails_fail (hpresence.trans (by decide))

theorem fails_readFilter : Fails readFilter WireFault.IsBrief := by
  refine (fails_readNumber 1).and_then fun number => ?_
  split
  · exact fails_pure _
  · rename_i fault hfault
    apply fails_fail
    rw [SymbolFilter.ofByte] at hfault
    split at hfault
    · cases hfault
    · cases hfault
      exact (Text.atMost_self _).append (Text.atMost_hex _)

theorem fails_readChecksum : Fails readChecksum WireFault.IsBrief := by
  have htake : Fails (take .endOfInput 32) WireFault.IsBrief := fails_take trivial 32
  refine htake.and_then fun bytes => ?_
  cases Fingerprint.ofBytes? bytes with
  | some checksum => exact fails_pure checksum
  | none => exact fails_fail trivial

theorem fails_readRequest : Fails readRequest WireFault.IsBrief := by
  refine fails_readChecksum.and_then fun checksum => ?_
  refine fails_readProject.and_then fun project => ?_
  refine (fails_readVariant (by decide) _).and_then fun query => ?_
  refine fails_readText.and_then fun text => ?_
  refine fails_readFilter.and_then fun filter => ?_
  exact (fails_readVariant (by decide) _).and_then fun scope => fails_pure _

/-- Each tag of a message stands for a reader that fails like the others. -/
theorem fails_messageOfTag? {tag : Nat} {reader : Reader Message}
    (h : messageOfTag? tag = some reader) : Fails reader WireFault.IsBrief := by
  match tag with
  | 0 =>
    cases h
    exact fails_readRequest.map Message.find
  | 1 =>
    cases h
    exact (fails_readList fails_readDescriptor).map Message.declarations
  | 2 =>
    cases h
    exact fails_readText.map Message.error

theorem fails_readMessage : Fails readMessage WireFault.IsBrief := by
  have hreturns : Returns (readVariant 3 messageOfTag?) fun reader =>
      Fails reader WireFault.IsBrief := by
    apply returns_bind
    intro tag
    cases htag : messageOfTag? tag with
    | none => exact returns_fail _
    | some reader => exact returns_pure (fails_messageOfTag? htag)
  exact (fails_readVariant (by decide) _).bind hreturns fun reader hreader => hreader

end Wire

/-! ### Limits that are exceeded -/

namespace Message

open Checks

variable {fault : LimitExceeded}

theorem length_of_checkLength {what : Limited} {length : Nat}
    (h : checkLength what length = .error fault) : fault.length = length := by
  rw [checkLength] at h
  split at h
  · cases h
  · cases h
    rfl

theorem le_of_checkText {what : Limited} {text : String} (h : checkText what text = .error fault) :
    fault.length ≤ (Wire.textBytes text).length := by
  rw [length_of_checkLength h, ← Bytes.length_ofString, Wire.textBytes, List.length_append]
  omega

theorem le_of_forM {α : Type} {check : α → Except LimitExceeded Unit} (write : α → Bytes)
    {items : List α}
    (hcheck : ∀ a ∈ items, check a = .error fault → fault.length ≤ (write a).length)
    (h : items.forM check = .error fault) : fault.length ≤ (Wire.listBytes write items).length := by
  obtain ⟨a, ha, hfault⟩ := exists_of_forM_eq_error h
  have hlength := hcheck a ha hfault
  have hbytes := Bytes.length_le_of_mem write ha
  rw [Wire.listBytes, List.length_append]
  omega

theorem le_of_checkLength {α : Type} {what : Limited} {write : α → Bytes} {items : List α}
    (hwrite : ∀ a, write a ≠ []) (h : checkLength what items.length = .error fault) :
    fault.length ≤ (Wire.listBytes write items).length := by
  have hbytes := Bytes.length_le_flatMap hwrite items
  rw [length_of_checkLength h, Wire.listBytes, List.length_append]
  omega

theorem le_of_checkSegment {segment : KeySegment} (h : checkSegment segment = .error fault) :
    fault.length ≤ (Wire.segmentBytes segment).length := by
  simp only [Wire.segmentBytes, List.length_append]
  rcases bind_eq_error h with hname | h
  · have := le_of_checkText hname
    omega
  · rcases bind_eq_error h with hcount | hparameters
    · have := le_of_checkLength Wire.textBytes_ne_nil hcount
      omega
    · have := le_of_forM Wire.textBytes (fun parameter _ => le_of_checkText) hparameters
      omega

theorem le_of_checkDescriptor {descriptor : Descriptor}
    (h : checkDescriptor descriptor = .error fault) :
    fault.length ≤ (Wire.descriptorBytes descriptor).length := by
  simp only [Wire.descriptorBytes, List.length_append]
  rcases bind_eq_error h with hcount | hsegments
  · have := le_of_checkLength Wire.segmentBytes_ne_nil hcount
    omega
  · have := le_of_forM Wire.segmentBytes (fun segment _ => le_of_checkSegment) hsegments
    omega

/-- The length that is too great is that of a part of the message. -/
theorem le_of_checkLimits {message : Message} (h : message.checkLimits = .error fault) :
    fault.length ≤ (Wire.messageBytes message).length := by
  cases message with
  | find request =>
    have := le_of_checkText h
    simp only [Wire.messageBytes, Wire.requestBytes, List.length_append]
    omega
  | declarations symbols =>
    rw [Wire.messageBytes, List.length_append]
    rcases bind_eq_error h with hcount | hsymbols
    · have := le_of_checkLength Wire.descriptorBytes_ne_nil hcount
      omega
    · have := le_of_forM Wire.descriptorBytes (fun symbol _ => le_of_checkDescriptor) hsymbols
      omega
  | error text =>
    have := le_of_checkText h
    rw [Wire.messageBytes, List.length_append]
    omega

end Message

namespace Wire

open Bytes.Reader

/-! ### Frames that are not accepted -/

/-- What a frame that is not accepted fails at: its length, its version, a part of its message, bytes
behind the message, or a limit. -/
theorem decode_eq_error {frame : Bytes} {error : WireError} (h : decode frame = .error error) :
    decodeFrame frame = .error error
      ∨ ∃ payload, decodeFrame frame = .ok payload
        ∧ (checkVersion payload = .error error
          ∨ (∃ fault, (readNumber 4 >>= fun _ => readMessage) payload = .error fault
            ∧ error = .malformed fault)
          ∨ error = .malformed .bytesLeft
          ∨ ∃ message fault, (readNumber 4 >>= fun _ => readMessage) payload = .ok (message, [])
            ∧ message.checkLimits = .error fault ∧ error = .limitExceeded fault) := by
  rw [decode] at h
  cases hpayload : decodeFrame frame with
  | error fault =>
    rw [hpayload] at h
    cases h
    exact .inl rfl
  | ok payload =>
    rw [hpayload] at h
    refine .inr ⟨payload, rfl, ?_⟩
    cases hversion : checkVersion payload with
    | error fault =>
      simp only [bind, Except.bind, hversion] at h
      cases h
      exact .inl rfl
    | ok _ =>
      simp only [bind, Except.bind, hversion] at h
      split at h
      · rename_i fault hread
        cases h
        exact .inr (.inl ⟨fault, hread, rfl⟩)
      · cases h
        exact .inr (.inr (.inl rfl))
      · rename_i message hread
        cases hlimits : message.checkLimits with
        | ok _ =>
          rw [hlimits] at h
          cases h
        | error fault =>
          rw [hlimits] at h
          cases h
          exact .inr (.inr (.inr ⟨message, fault, hread, hlimits, rfl⟩))

theorem value_take_lt {bytes : Bytes} (h : ¬ bytes.length < 4) :
    Bytes.value (bytes.take 4) < Bytes.limit 8 := by
  have hvalue := Bytes.value_lt (bytes.take 4)
  rw [List.length_take_of_le (Nat.not_lt.1 h)] at hvalue
  exact hvalue.trans (by decide)

theorem isBrief_of_decodeFrame {frame : Bytes} (hframe : frame.length < Bytes.limit 8)
    {error : WireError} (h : decodeFrame frame = .error error) : error.IsBrief := by
  rw [decodeFrame] at h
  split at h
  · cases h
    exact ⟨by decide, hframe⟩
  rename_i hlength
  have hdeclared := value_take_lt hlength
  simp only at h
  split at h
  · cases h
    exact hdeclared
  · split at h
    · cases h
    · cases h
      refine ⟨hdeclared, ?_⟩
      rw [List.length_drop]
      omega

theorem isBrief_of_checkVersion {payload : Bytes} {error : WireError}
    (h : checkVersion payload = .error error) : error.IsBrief := by
  rw [checkVersion] at h
  split at h
  · cases h
  · rename_i hversion
    cases h
    exact value_take_lt fun hlength => hversion (.inl hlength)

theorem length_messageBytes_le {payload rest : Bytes} {message : Message}
    (h : (readNumber 4 >>= fun _ => readMessage) payload = .ok (message, rest)) :
    (messageBytes message).length ≤ payload.length := by
  obtain ⟨bytes, rfl, found, -, rfl⟩ := consumes_payload payload message rest h
  simp only [List.length_append]
  omega

/-- The error of a frame that is not accepted is brief, whatever bytes the frame is made of. -/
theorem isBrief_of_decode {frame : Bytes} (hframe : frame.length < Bytes.limit 8)
    {error : WireError} (h : decode frame = .error error) : error.IsBrief := by
  rcases decode_eq_error h with h | ⟨payload, hpayload, h⟩
  · exact isBrief_of_decodeFrame hframe h
  rcases h with h | ⟨fault, hread, rfl⟩ | rfl | ⟨message, fault, hread, hlimits, rfl⟩
  · exact isBrief_of_checkVersion h
  · have hfails : Fails (readNumber 4 >>= fun _ => readMessage) WireFault.IsBrief :=
      (fails_readNumber 4).and_then fun _ => fails_readMessage
    exact hfails payload fault hread
  · trivial
  -- A length that exceeds a limit is still that of a part of the payload.
  · have hlength := Message.le_of_checkLimits hlimits
    have hbytes := length_messageBytes_le hread
    have hmax := (decodeFrame_eq_ok hpayload).1
    have hlimit : maxPayload < Bytes.limit 8 := by decide
    exact (by omega : fault.length < Bytes.limit 8)

end Wire

end SymbolSearch
