import Microkernel.Proofs.Wire.RoundTrip
import Microkernel.Wire.Response

/-!
# A frame is read as it was written

The data section of a message that carries a frame is the padding, the header, the payload and zeros up to the reserved size.
`readFrame_withFrame` says that the frame is found there, and `Response.parse_image` that a response is read back.
-/

namespace Microkernel.Wire

open Decoder

/-- The four words of a header are read back. -/
theorem reads_frameHeader (h : FrameHeader) : Reads (FrameHeader.decoder h.magic.toNat) h.bytes h := by
  have hm : h.magic.toNat % widthLimit 32 = h.magic.toNat := Nat.mod_eq_of_lt h.magic.toNat_lt
  unfold FrameHeader.bytes FrameHeader.decoder
  rw [List.append_assoc, List.append_assoc]
  refine (reads_word _).bind ?_
  rw [hm, if_neg (by simp)]
  refine ((reads_word _).bind ((reads_word _).bind ((reads_word _).bind_pure _))).of_eq ?_
  simp only [ofNat_toNat_mod32, UInt32.ofNat_toNat]

@[simp] theorem length_frameHeader (h : FrameHeader) : h.bytes.length = frameHeaderSize := by
  simp [FrameHeader.bytes, frameHeaderSize]

/-- The zeros behind a payload that begins its frame at an offset. -/
def frameSlack (offset : Nat) (payload : Bytes) : Nat :=
  reservedSize payload - (framePadding offset + (frameHeaderSize + payload.length))

/-- The reserved size has room for the padding before the frame. -/
theorem le_reservedSize (offset : Nat) (payload : Bytes) :
    framePadding offset + (frameHeaderSize + payload.length) ≤ reservedSize payload := by
  unfold framePadding reservedSize alignUp frameHeaderSize frameAlignment
  omega

/-- A frame is its padding, the header, the payload and zeros up to the reserved size. -/
theorem frameData_eq (offset : Nat) (h : FrameHeader) (payload : Bytes) : frameData offset h payload =
    zeros (framePadding offset) ++ (h.bytes ++ (payload ++ zeros (frameSlack offset payload))) := by
  simp only [frameData, padTo, List.length_append, length_zeros, length_frameHeader, frameSlack, List.append_assoc]

/-- A frame takes the reserved size, wherever it begins. -/
theorem length_frameData (offset : Nat) (h : FrameHeader) (payload : Bytes) :
    (frameData offset h payload).length = reservedSize payload := by
  have := le_reservedSize offset payload
  simp only [frameData_eq, List.length_append, length_zeros, length_frameHeader, frameSlack]
  omega

/-- A data section with a frame needs no padding of its own. -/
theorem padTo_frameData (offset : Nat) (h : FrameHeader) (payload : Bytes) :
    padTo (alignUp (frameData offset h payload).length 4) (frameData offset h payload) = frameData offset h payload := by
  have ha : alignUp (reservedSize payload) 4 - reservedSize payload = 0 := by
    unfold reservedSize alignUp
    omega
  rw [padTo, length_frameData, ha]
  exact List.append_nil _

/-- The frame of a message is found on the wire, with the payload and the zeros behind it. -/
theorem readFrame_withFrame (m : Message) (h : FrameHeader) (payload : Bytes) {magic : Nat} (hm : h.magic.toNat = magic) :
    (m.withFrame h payload).onWire.readFrame magic = .ok (h, payload ++ zeros (frameSlack m.computeDataOffset payload)) := by
  have hdata : (m.withFrame h payload).onWire.data = frameData m.computeDataOffset h payload := padTo_frameData _ _ _
  have hframe : (m.withFrame h payload).onWire.frame =
      .ok (h.bytes ++ (payload ++ zeros (frameSlack m.computeDataOffset payload))) := by
    have hoffset : (m.withFrame h payload).onWire.dataOffset = m.computeDataOffset := rfl
    unfold Message.frame
    rw [hdata, hoffset, frameData_eq, if_neg (by simp), List.drop_left' (length_zeros _)]
  unfold Message.readFrame
  rw [hframe, ← hm]
  change ((FrameHeader.decoder h.magic.toNat).run _).bind _ = _
  rw [run_eq_of_readsAt (reads_frameHeader h [])]
  change Except.ok (h, List.drop frameHeaderSize _) = _
  rw [List.drop_left' (length_frameHeader h)]

namespace Response

/-- The lists that a response sends, without its frame. -/
def envelope (r : Response) : Message := { copyHandles := r.copyHandles, moveHandles := r.moveHandles, sendStatics := r.sendStatics }

/-- What an image carries of a response. -/
def onWire (r : Response) : Response :=
  { r with
    payload := r.payload ++ zeros (frameSlack r.envelope.computeDataOffset r.payload)
    sendStatics := r.sendStatics.map StaticDescriptor.onWire }

/-- The frame of a response is found in its message, with the payload filled up. -/
theorem readFrame_message (r : Response) : r.message.onWire.readFrame responseMagic =
    .ok ({ magic := .ofNat responseMagic, value := r.result.raw }, r.onWire.payload) :=
  readFrame_withFrame r.envelope _ r.payload (show (UInt32.ofNat responseMagic).toNat = responseMagic by decide)

/-- The image of a response is read back, whatever stands behind it. -/
theorem parse_image {r : Response} {image : Bytes} (h : r.encode = .ok image) (rest : Bytes) :
    parse (image ++ rest) = .ok r.onWire := by
  obtain ⟨hf, rfl⟩ := (Message.encode_eq_ok_iff _ _).1 h
  unfold parse
  rw [Message.decode_image hf]
  simp only [bind, Except.bind, readFrame_message, pure, Except.pure]
  rfl

/-- A response that is encoded is read as what the wire carries of it. -/
theorem parse_encode {r : Response} {image : Bytes} (h : r.encode = .ok image) : parse image = .ok r.onWire := by
  have hp := parse_image h []
  rw [List.append_nil] at hp
  exact hp

/-- A response has no gap before its receive list. -/
theorem listStart_message (r : Response) : r.message.listStart = r.message.bodyBytes.length :=
  if_pos (show (0 : UInt16) = 0 from rfl)

/-- The image of a response ends with its data section. -/
theorem length_image (r : Response) : r.message.image.length = r.envelope.computeDataOffset + reservedSize r.payload := by
  have hd : r.message.data.length = reservedSize r.payload := length_frameData _ _ _
  have hp : piecesOf (reservedSize r.payload) 4 * 4 = reservedSize r.payload := by
    unfold piecesOf reservedSize alignUp
    omega
  have hg : r.message.listGap = [] := by
    rw [Message.listGap, listStart_message, Nat.sub_self]
    rfl
  have hl : r.message.receiveList = [] := rfl
  rw [Message.image, hg, hl, List.append_nil, List.flatMap_nil, List.append_nil, Message.length_bodyBytes, hd, hp]
  rfl

/-- A response fits a message buffer exactly if its lists and its image are not too long. -/
theorem fits_iff (r : Response) : r.message.Fits ↔ r.copyHandles.length ≤ maxDescriptors ∧ r.moveHandles.length ≤ maxDescriptors ∧
    r.sendStatics.length ≤ maxDescriptors ∧ r.envelope.computeDataOffset + reservedSize r.payload ≤ messageBufferSize := by
  rw [← length_image]
  constructor
  · exact fun h => ⟨h.copyHandles, h.moveHandles, h.sendStatics, h.size⟩
  · rintro ⟨hc, hm, hs, hl⟩
    constructor
    case sendStatics => exact hs
    case copyHandles => exact hc
    case moveHandles => exact hm
    case size => exact hl
    case start => exact Nat.le_of_eq (listStart_message r).symm
    case data =>
      have hd : r.message.data.length = reservedSize r.payload := length_frameData _ _ _
      rw [length_image] at hl
      rw [hd]
      unfold piecesOf maxDataWords
      unfold messageBufferSize at hl
      omega
    all_goals exact Nat.zero_le _

/-- Whether a response fits depends on how long its parts are, not on which handles it lists. -/
theorem fits_congr (r : Response) (copies moves : List UInt32) (hc : copies.length = r.copyHandles.length)
    (hm : moves.length = r.moveHandles.length) :
    Message.Fits { r with copyHandles := copies, moveHandles := moves }.message ↔ r.message.Fits := by
  have hempty {l l' : List UInt32} (h : l.length = l'.length) : l.isEmpty = l'.isEmpty := by
    cases l <;> cases l' <;> simp_all
  rw [fits_iff, fits_iff, hc, hm]
  simp only [envelope, Message.computeDataOffset, Message.hasSpecialHeader, hc, hm, hempty hc, hempty hm]
  exact Iff.rfl

/-- A response that carries only a result has an image. -/
theorem encode_bare (result : ResultCode) : encode { result } = .ok (bare result) := by
  have hsize : 8 + reservedSize [] ≤ messageBufferSize := by decide
  have hf := (fits_iff { result }).2 ⟨Nat.zero_le _, Nat.zero_le _, Nat.zero_le _, hsize⟩
  have h : encode { result } = .ok _ := (Message.encode_eq_ok_iff _ _).2 ⟨hf, rfl⟩
  unfold bare
  rw [h]

/-- A bare response is read as its result, without handles. -/
theorem parse_bare (result : ResultCode) : ∃ r, parse (bare result) = .ok r ∧ r.result = result ∧
    r.copyHandles = [] ∧ r.moveHandles = [] := by
  exact ⟨_, parse_encode (encode_bare result), rfl, rfl, rfl⟩

end Response

end Microkernel.Wire
