import Microkernel.Proofs.Wire.Framing
import Microkernel.Wire.Request

/-!
# Requests and responses are read as they were written

The two sides reckon independently where a frame begins: who writes it from the lists that stand before the data section, who
reads it from the offset that was reached there. They agree for every combination of lists
(`RequestDescription.parse_of_encode`, `Response.encode_exact`).
-/

namespace Microkernel.Wire

/-! ## Where a frame stands -/

/-- Where a frame begins is the offset with its padding. -/
theorem alignUp_eq (offset : Nat) : alignUp offset frameAlignment = offset + framePadding offset := by
  unfold framePadding alignUp frameAlignment
  omega

/-- The header of a frame stands in the image at the first aligned offset behind the lists. -/
theorem header_prefix_image (m : Message) (h : FrameHeader) (payload : Bytes) :
    h.bytes <+: (m.withFrame h payload).image.drop (alignUp m.computeDataOffset frameAlignment) := by
  have hlead : (m.withFrame h payload).leadBytes.length = m.computeDataOffset := Message.length_leadBytes _
  have hpadded : (m.withFrame h payload).paddedData = frameData m.computeDataOffset h payload := padTo_frameData _ _ _
  rw [alignUp_eq, Message.image, Message.bodyBytes_eq, hpadded, frameData_eq, List.append_assoc, List.append_assoc, ← hlead,
    ← List.drop_drop, List.drop_left, List.append_assoc, List.drop_left' (length_zeros _), List.append_assoc]
  exact List.prefix_append _ _

/-! ## Descriptors that lose nothing -/

/-- An index and an address that a static descriptor holds. -/
def StaticDescriptor.Fits (d : StaticDescriptor) : Prop := d.index.toNat < widthLimit 6 ∧ d.address.toNat < widthLimit 42

/-- An address and a size that a buffer descriptor holds. -/
def BufferDescriptor.Fits (d : BufferDescriptor) : Prop := d.address.toNat < widthLimit 58 ∧ d.size.toNat < widthLimit 36

/-- An address that a receive-list entry holds. -/
def ReceiveEntry.Fits (e : ReceiveEntry) : Prop := e.address.toNat < widthLimit 48

instance : DecidablePred StaticDescriptor.Fits := fun _ => inferInstanceAs (Decidable (_ ∧ _))

/-- A static descriptor that fits loses nothing on the wire. -/
theorem StaticDescriptor.onWire_of_fits {d : StaticDescriptor} (h : d.Fits) : d.onWire = d := by
  rw [onWire, Nat.mod_eq_of_lt h.1, Nat.mod_eq_of_lt h.2, UInt8.ofNat_toNat, UInt64.ofNat_toNat]

instance : DecidablePred BufferDescriptor.Fits := fun _ => inferInstanceAs (Decidable (_ ∧ _))

/-- A buffer descriptor that fits loses nothing on the wire. -/
theorem BufferDescriptor.onWire_of_fits {d : BufferDescriptor} (h : d.Fits) : d.onWire = d := by
  rw [onWire, Nat.mod_eq_of_lt h.1, Nat.mod_eq_of_lt h.2, UInt64.ofNat_toNat, UInt64.ofNat_toNat]

instance : DecidablePred ReceiveEntry.Fits := fun _ => inferInstanceAs (Decidable (_ < _))

/-- A receive-list entry that fits loses nothing on the wire. -/
theorem ReceiveEntry.onWire_of_fits {e : ReceiveEntry} (h : e.Fits) : e.onWire = e := by
  rw [onWire, Nat.mod_eq_of_lt h, UInt64.ofNat_toNat]

/-- A list whose elements are all left alone. -/
theorem map_eq_self {α : Type} {f : α → α} {P : α → Prop} (hf : ∀ {a}, P a → f a = a) {l : List α} (h : ∀ a ∈ l, P a) :
    l.map f = l := (List.map_congr_left fun a ha => hf (h a ha)).trans (List.map_id l)

/-! ## Requests -/

/-- The type of a command is read back from its code. -/
theorem CommandType.ofCode?_code (c : CommandType) : ofCode? c.code = some c := by
  cases c <;> rfl

namespace RequestDescription

/-- The lists that a request sends, without its frame. -/
def envelope (r : RequestDescription) : Message where
  messageType := r.commandType.code
  pid := if r.sendPid then some 0 else none
  copyHandles := r.copyHandles
  moveHandles := r.moveHandles
  sendStatics := r.sendStatics
  sendBuffers := r.sendBuffers
  receiveBuffers := r.receiveBuffers
  exchangeBuffers := r.exchangeBuffers
  receiveList := r.receiveList

/-- The header of a request's frame. -/
def header (r : RequestDescription) : FrameHeader :=
  { magic := .ofNat requestMagic, version := 0, value := r.commandId, token := 0 }

/-- The descriptors of a request lose nothing on the wire. -/
structure WithinWidths (r : RequestDescription) : Prop where
  sendStatics : ∀ d ∈ r.sendStatics, d.Fits
  sendBuffers : ∀ d ∈ r.sendBuffers, d.Fits
  receiveBuffers : ∀ d ∈ r.receiveBuffers, d.Fits
  exchangeBuffers : ∀ d ∈ r.exchangeBuffers, d.Fits
  receiveList : ∀ e ∈ r.receiveList, e.Fits

/-- A request is what a description says. -/
structure Describes (r : RequestDescription) (q : Request) : Prop where
  commandType : q.commandType = r.commandType
  commandId : q.commandId = r.commandId
  version : q.header.version = 0
  token : q.header.token = 0
  /-- Behind the arguments there are only zeros. -/
  payload : ∃ n, q.payload = r.payload ++ zeros n
  pid : q.message.pid.isSome = r.sendPid
  copyHandles : q.message.copyHandles = r.copyHandles
  moveHandles : q.message.moveHandles = r.moveHandles
  sendStatics : q.message.sendStatics = r.sendStatics
  sendBuffers : q.message.sendBuffers = r.sendBuffers
  receiveBuffers : q.message.receiveBuffers = r.receiveBuffers
  exchangeBuffers : q.message.exchangeBuffers = r.exchangeBuffers
  receiveList : q.message.receiveList = r.receiveList

/-- What is read of the image of a request. -/
def onWire (r : RequestDescription) : Request where
  commandType := r.commandType
  header := r.header
  payload := r.payload ++ zeros (frameSlack r.envelope.computeDataOffset r.payload)
  message := r.message.onWire

/-- The image of a request is read as what the wire carries of it. -/
theorem parse_image {r : RequestDescription} (h : r.message.Fits) : Request.parse r.message.image = .ok r.onWire := by
  have hdecode := Message.decode_image h []
  have hframe : r.message.onWire.readFrame requestMagic = .ok (r.header, r.onWire.payload) :=
    readFrame_withFrame r.envelope r.header r.payload (show (UInt32.ofNat requestMagic).toNat = requestMagic by decide)
  have htype : (CommandType.ofCode? r.message.onWire.messageType).getD .invalid = r.commandType := by
    rw [show r.message.onWire.messageType = r.commandType.code from rfl, CommandType.ofCode?_code, Option.getD_some]
  rw [List.append_nil] at hdecode
  unfold Request.parse
  rw [hdecode]
  change Request.ofMessage _ r.message.onWire = _
  unfold Request.ofMessage
  rw [hframe, htype]
  rfl

/-- What is read is what was described, if its descriptors are not too wide. -/
theorem describes_onWire {r : RequestDescription} (h : r.WithinWidths) : r.Describes r.onWire where
  commandType := rfl
  commandId := rfl
  version := rfl
  token := rfl
  payload := ⟨_, rfl⟩
  pid := by
    change (if r.sendPid then some (0 : UInt64) else none).isSome = r.sendPid
    cases r.sendPid <;> rfl
  copyHandles := rfl
  moveHandles := rfl
  sendStatics := map_eq_self StaticDescriptor.onWire_of_fits h.sendStatics
  sendBuffers := map_eq_self BufferDescriptor.onWire_of_fits h.sendBuffers
  receiveBuffers := map_eq_self BufferDescriptor.onWire_of_fits h.receiveBuffers
  exchangeBuffers := map_eq_self BufferDescriptor.onWire_of_fits h.exchangeBuffers
  receiveList := map_eq_self ReceiveEntry.onWire_of_fits h.receiveList

/-- The image of a request is read as the request that was described, and its header stands at the first aligned offset behind the
lists, where it is looked for. -/
theorem parse_of_encode (r : RequestDescription) (image : Bytes) (hw : r.WithinWidths) (h : r.encode = .ok image) :
    ∃ q, Request.parse image = .ok q ∧ r.Describes q ∧
      alignUp q.message.dataOffset frameAlignment % 16 = 0 ∧
      r.header.bytes <+: image.drop (alignUp q.message.dataOffset frameAlignment) := by
  obtain ⟨hf, rfl⟩ := (Message.encode_eq_ok_iff _ _).1 h
  refine ⟨r.onWire, parse_image hf, describes_onWire hw, Nat.mul_mod_left _ _, ?_⟩
  exact header_prefix_image r.envelope r.header r.payload

/-- A request with every list, a process id and arguments that end inside a word. -/
def crowdedRequest : RequestDescription where
  commandType := .controlWithContext
  commandId := 0x1234
  sendPid := true
  copyHandles := [0x8001]
  moveHandles := [0x18002, 0x28003]
  sendStatics := [{ index := 0x3F, address := 0x3FFFFFFFFFF, size := 0x20 }]
  sendBuffers := [.mapped 0x10000000 0x40]
  receiveBuffers := [.mapped 0x10001000 0xFFFFFFFFF]
  exchangeBuffers := [.mapped 0x10002000 0x10]
  receiveList := [{ address := 0x30000000, size := 0x100 }]
  arguments := [.word 7, .longWord 8, .raw [1, 2, 3]]

/-- A request with every list is read back, with its arguments filled up. -/
theorem parse_of_encode_crowdedRequest : ∃ image q, crowdedRequest.encode = .ok image ∧ Request.parse image = .ok q ∧
    crowdedRequest.Describes q ∧ q.payload = crowdedRequest.payload ++ zeros 13 := by
  have hf : crowdedRequest.message.Fits := by constructor <;> decide +kernel
  have hw : crowdedRequest.WithinWidths := by constructor <;> decide
  have hencode : crowdedRequest.encode = .ok crowdedRequest.message.image := (Message.encode_eq_ok_iff _ _).2 ⟨hf, rfl⟩
  obtain ⟨q, hparse, hdescribes, -⟩ := parse_of_encode crowdedRequest _ hw hencode
  refine ⟨_, q, hencode, hparse, hdescribes, ?_⟩
  obtain rfl : crowdedRequest.onWire = q := Except.ok.inj ((parse_image hf).symm.trans hparse)
  decide +kernel

end RequestDescription

/-! ## Responses -/

namespace Response

/-- A response has no image exactly if one of its lists is too long or the image does not fit the message buffer; an image is read
as the response that was written, descriptors cut to their fields and the payload followed by zeros. -/
theorem encode_exact (r : Response) :
    ((∃ e, r.encode = .error e) ↔ maxDescriptors < r.copyHandles.length ∨ maxDescriptors < r.moveHandles.length ∨
      maxDescriptors < r.sendStatics.length ∨ messageBufferSize < r.message.image.length) ∧
    ∀ image, r.encode = .ok image → image = r.message.image ∧ ∃ q, parse image = .ok q ∧ q.result.raw = r.result.raw ∧
      q.copyHandles = r.copyHandles ∧ q.moveHandles = r.moveHandles ∧
      q.sendStatics = r.sendStatics.map StaticDescriptor.onWire ∧ ∃ n, q.payload = r.payload ++ zeros n := by
  constructor
  · have hfits := fits_iff r
    have hencode : (∃ e, r.encode = .error e) ↔ ¬r.message.Fits := by
      constructor
      · rintro ⟨e, he⟩ hf
        have hok : r.encode = .ok r.message.image := (Message.encode_eq_ok_iff _ _).2 ⟨hf, rfl⟩
        cases he.symm.trans hok
      · intro hf
        cases he : r.encode with
        | error e => exact ⟨e, rfl⟩
        | ok image => exact absurd ((Message.encode_eq_ok_iff _ _).1 he).1 hf
    rw [hencode, hfits, ← length_image]
    omega
  · intro image h
    exact ⟨((Message.encode_eq_ok_iff _ _).1 h).2.symm, r.onWire, parse_encode h, rfl, rfl, rfl, rfl, _, rfl⟩

/-- A response with every list and a static descriptor that is too wide. -/
def crowdedResponse : Response where
  result := ⟨0x815⟩
  payload := [1, 2, 3, 4, 5]
  copyHandles := [0x8001]
  moveHandles := [0x10003, 0x18002]
  sendStatics := [{ index := 0x45, address := 0x7FF12345678, size := 0x40 }]

/-- The crowded response is read back, and a response with one byte more than a message buffer holds is refused. -/
theorem encode_exact_crowdedResponse :
    (∃ q, crowdedResponse.encode = .ok crowdedResponse.message.image ∧ parse crowdedResponse.message.image = .ok q ∧
      q.moveHandles = [0x10003, 0x18002] ∧ q.sendStatics = [{ index := 5, address := 0x3FF12345678, size := 0x40 }]) ∧
    (∃ image, encode { result := .success, payload := zeros 216 } = .ok image) ∧
    ∃ e, encode { result := .success, payload := zeros 217 } = .error e := by
  refine ⟨?_, ?_, ?_⟩
  · have hf : crowdedResponse.message.Fits := (fits_iff _).2 (by decide +kernel)
    have hencode : crowdedResponse.encode = .ok crowdedResponse.message.image := (Message.encode_eq_ok_iff _ _).2 ⟨hf, rfl⟩
    obtain ⟨-, q, hparse, -, -, hmoves, hstatics, -⟩ := (encode_exact crowdedResponse).2 _ hencode
    exact ⟨q, hencode, hparse, hmoves, hstatics.trans (by decide +kernel)⟩
  · exact ⟨_, (Message.encode_eq_ok_iff _ _).2 ⟨(fits_iff _).2 (by decide +kernel), rfl⟩⟩
  · refine (encode_exact { result := .success, payload := zeros 217 }).1.2 (.inr (.inr (.inr ?_)))
    rw [length_image]
    decide +kernel

end Response

end Microkernel.Wire
