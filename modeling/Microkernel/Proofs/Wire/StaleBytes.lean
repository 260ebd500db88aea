import Microkernel.Proofs.Memory.HostBytes
import Microkernel.Proofs.Memory.Regions
import Microkernel.Proofs.Wire.RoundTrip
import Microkernel.Wire.Request
import Microkernel.Wire.Response

/-!
# Stale bytes behind a message

A message buffer is read as a whole although most messages are shorter, so what stands behind a message was left there by another.
A decoder looks at an image through `Decoder.take` only, and that asks for the end of the image only to refuse: unless it runs
short, a decoder does the same on every longer image (`Decoder.Local`).
-/

namespace Microkernel

namespace Wire

/-- The image was too short for what was read. -/
def IsTruncated {α : Type} : Except ProtocolError α → Prop
  | .error (.truncated _ _ _) => True
  | _ => False

namespace IsTruncated

variable {α β : Type} {result : Except ProtocolError α}

/-- A reading that goes on with what was decoded runs short if the decoding did. -/
theorem bind (h : IsTruncated result) (f : α → Except ProtocolError β) : IsTruncated (result >>= f) := by
  cases result with
  | error e => cases e <;> exact h
  | ok a => exact h.elim

/-- What is made of an answer is cut short where the answer is. -/
theorem map (h : IsTruncated result) (f : α → β) : IsTruncated (result.map f) := by
  cases result with
  | error e => cases e <;> exact h
  | ok a => exact h.elim

end IsTruncated

/-! ## Decoders that do not ask where the image ends -/

namespace Decoder

variable {α β : Type}

/-- Unless it runs short, the decoder does the same whatever stands behind the image. -/
def Local (d : Decoder α) : Prop :=
  ∀ image rest offset, ¬IsTruncated (d image offset) → d (image ++ rest) offset = d image offset

namespace Local

theorem pure (a : α) : Local (Pure.pure a) := fun _ _ _ _ => rfl

theorem fail (e : ProtocolError) : Local (Decoder.fail e : Decoder α) := fun _ _ _ _ => rfl

theorem position : Local position := fun _ _ _ _ => rfl

theorem seek (offset : Nat) : Local (seek offset) := fun _ _ _ _ => rfl

/-- Taking bytes looks no further than those. -/
theorem take (n : Nat) : Local (take n) := by
  intro image rest offset h
  unfold Decoder.take at h ⊢
  by_cases hn : offset + n ≤ image.length
  · have hdrop : (image ++ rest).drop offset = image.drop offset ++ rest := List.drop_append_of_le_length (by omega)
    have htake : (image.drop offset ++ rest).take n = (image.drop offset).take n :=
      List.take_append_of_le_length (by rw [List.length_drop]; omega)
    rw [if_pos hn, if_pos (by rw [List.length_append]; omega), hdrop, htake]
  · rw [if_neg hn] at h
    exact absurd trivial h

/-- Two local decoders in a row are local. -/
theorem bind {d : Decoder α} {f : α → Decoder β} (hd : Local d) (hf : ∀ a, Local (f a)) : Local (d >>= f) := by
  intro image rest offset h
  change ¬IsTruncated (Decoder.bind d f image offset) at h
  change Decoder.bind d f (image ++ rest) offset = Decoder.bind d f image offset
  unfold Decoder.bind at h ⊢
  cases hrun : d image offset with
  | ok pair =>
    rw [hrun] at h
    rw [hd image rest offset (by rw [hrun]; exact id), hrun]
    exact hf pair.1 image rest pair.2 h
  | error e =>
    rw [hrun] at h
    rw [hd image rest offset (by rw [hrun]; exact fun ht => h (ht.bind fun _ => .error e)), hrun]

/-- What is made of the answer of a local decoder is local. -/
theorem map {d : Decoder α} (h : Local d) (f : α → β) : Local (f <$> d) := h.bind fun a => pure (f a)

/-- A choice between local decoders is local. -/
theorem ite {c : Prop} [Decidable c] {d d' : Decoder α} (h : Local d) (h' : Local d') : Local (if c then d else d') := by
  split
  · exact h
  · exact h'

/-- A local decoder that runs several times is local. -/
theorem times {d : Decoder α} (h : Local d) (n : Nat) : Local (times d n) := by
  induction n with
  | zero => exact pure []
  | succ n ih => exact h.bind fun _ => ih.bind fun _ => pure _

theorem word : Local word := (take 4).bind fun _ => pure _

theorem longWord : Local longWord := word.bind fun _ => word.bind fun _ => pure _

/-- A local decoder that does not run short answers the same on a longer image. -/
theorem run {d : Decoder α} (h : Local d) {image : Bytes} (hi : ¬IsTruncated (d.run image)) (rest : Bytes) :
    d.run (image ++ rest) = d.run image := by
  unfold Decoder.run at hi ⊢
  rw [h image rest 0 fun ht => hi (ht.map _)]

end Local

end Decoder

/-! ## Messages -/

namespace Message

open Decoder

/-- Reading a handle is local. -/
theorem local_handle : Local handleDecoder := Local.word.bind fun _ => .pure _

/-- Reading a static descriptor is local. -/
theorem local_static : Local staticDecoder := Local.word.bind fun _ => Local.word.bind fun _ => .pure _

/-- Reading a buffer descriptor is local. -/
theorem local_buffer : Local bufferDecoder := by
  refine Local.word.bind fun _ => Local.word.bind fun _ => Local.word.bind fun tail => ?_
  split
  · exact .pure _
  · exact .fail _

/-- Reading a receive-list entry is local. -/
theorem local_receiveEntry : Local receiveEntryDecoder := Local.word.bind fun _ => Local.word.bind fun _ => .pure _

/-- Reading a special header is local. -/
theorem local_special : Local specialDecoder := by
  refine Local.word.bind fun special => ?_
  simp only [ite_bind]
  refine Local.bind (Local.ite (Local.longWord.map _) (.pure none)) fun _ => ?_
  exact (local_handle.times _).bind fun _ => (local_handle.times _).bind fun _ => .pure _

/-- Where the receive list begins is reckoned from what was read, not from the end of the image. -/
theorem local_seekReceiveList (entries offset : Nat) : Local (seekReceiveList entries offset) := by
  refine .ite (Local.position.bind fun dataEnd => ?_) (.pure ())
  split
  · exact .seek _
  · exact .fail _

/-- Reading a message is local. -/
theorem local_decoder : Local decoder := by
  refine Local.word.bind fun first => Local.word.bind fun second => ?_
  simp only [ite_bind]
  refine Local.bind (Local.ite local_special (.pure _)) fun _ => ?_
  refine (local_static.times _).bind fun _ => ?_
  refine (local_buffer.times _).bind fun _ => (local_buffer.times _).bind fun _ => (local_buffer.times _).bind fun _ => ?_
  refine Local.position.bind fun _ => (Local.take _).bind fun _ => ?_
  exact (local_seekReceiveList _ _).bind fun _ => (local_receiveEntry.times _).bind fun _ => .pure _

/-- A message means the same whatever stands behind it. -/
theorem decode_append {image : Bytes} (h : ¬IsTruncated (decode image)) (rest : Bytes) : decode (image ++ rest) = decode image :=
  local_decoder.run h rest

/-- A message buffer is read as the message that was written into it, whatever it held before. -/
theorem decode_buffer {m : Message} {image buffer : Bytes} {memory written : HostMemory} {address : Nat}
    (h : m.encode = .ok image) (hwrite : memory.write address image = .ok written)
    (hread : written.read address messageBufferSize = .ok buffer) :
    decode buffer = decode image ∧ decode image = .ok m.onWire := by
  obtain ⟨hf, rfl⟩ := (encode_eq_ok_iff m image).1 h
  have hbuffer := HostMemory.read_of_write hf.size hwrite hread
  have hdecode : ∀ rest, decode (m.image ++ rest) = .ok m.onWire := decode_image hf
  have himage : decode m.image = .ok m.onWire := by rw [← List.append_nil m.image, hdecode]
  rw [hbuffer, hdecode, himage]
  exact ⟨rfl, rfl⟩

end Message

/-! ## Requests and responses -/

/-- Requests are parsed alike from images that are decoded alike. -/
theorem Request.parse_congr {image image' : Bytes} (h : Message.decode image' = Message.decode image) :
    parse image' = parse image := by
  unfold parse
  rw [h]

/-- Responses are parsed alike from images that are decoded alike. -/
theorem Response.parse_congr {image image' : Bytes} (h : Message.decode image' = Message.decode image) :
    parse image' = parse image := by
  unfold parse
  rw [h]

/-- What stands behind a message has no meaning: neither for the message nor for the request or response in it, unless they end
too early. So whoever reads a whole message buffer finds the message that was written into it, whatever was left there before. -/
theorem stale_bytes_ignored (image stale : Bytes) :
    (¬IsTruncated (Message.decode image) → Message.decode (image ++ stale) = Message.decode image) ∧
    (¬IsTruncated (Request.parse image) → Request.parse (image ++ stale) = Request.parse image) ∧
    (¬IsTruncated (Response.parse image) → Response.parse (image ++ stale) = Response.parse image) ∧
    ∀ (m : Message) (memory written : HostMemory) (address : Nat) (buffer : Bytes), m.encode = .ok image →
      memory.write address image = .ok written → written.read address messageBufferSize = .ok buffer →
      Message.decode buffer = .ok m.onWire ∧ Message.decode buffer = Message.decode image ∧
      Request.parse buffer = Request.parse image ∧ Response.parse buffer = Response.parse image := by
  refine ⟨fun h => Message.decode_append h stale, fun h => ?_, fun h => ?_, fun m memory written address buffer h hw hr => ?_⟩
  · exact Request.parse_congr (Message.decode_append (fun ht => h (ht.bind _)) stale)
  · exact Response.parse_congr (Message.decode_append (fun ht => h (ht.bind _)) stale)
  · obtain ⟨hsame, hdecode⟩ := Message.decode_buffer h hw hr
    exact ⟨hsame.trans hdecode, hsame, Request.parse_congr hsame, Response.parse_congr hsame⟩

/-- A memory in which an earlier message has left bytes. -/
def usedMemory : HostMemory := (HostMemory.new pageSize).storeAll 0x100 [0xFF, 0xFF]

theorem size_usedMemory : usedMemory.size = pageSize := HostMemory.size_storeAll _ _ _

/-- A message that is written over bytes of an earlier one, and the whole buffer read. -/
theorem stale_bytes_ignored_crowdedMessage :
    ∃ written buffer, usedMemory.write 0x80 crowdedMessage.image = .ok written ∧
      written.read 0x80 messageBufferSize = .ok buffer ∧
      Message.decode buffer = .ok crowdedMessage.onWire ∧ ¬IsTruncated (Message.decode crowdedMessage.image) ∧
      Message.decode (crowdedMessage.image ++ [0xFF]) = Message.decode crowdedMessage.image := by
  have hf : crowdedMessage.Fits := by constructor <;> decide +kernel
  have hencode := (Message.encode_eq_ok_iff _ _).2 ⟨hf, rfl⟩
  have hlength : crowdedMessage.image.length = 168 := by decide +kernel
  have hwrite : usedMemory.write 0x80 crowdedMessage.image = .ok (usedMemory.storeAll 0x80 crowdedMessage.image) :=
    HostMemory.write_eq_ok_iff.2 ⟨by rw [hlength, size_usedMemory]; exact checkRange_ok (by decide) (by decide), rfl⟩
  have hread : (usedMemory.storeAll 0x80 crowdedMessage.image).read 0x80 messageBufferSize = .ok _ :=
    HostMemory.read_eq_ok_iff.2
      ⟨by rw [HostMemory.size_storeAll, size_usedMemory]; exact checkRange_ok (by decide) (by decide), rfl⟩
  have hshort : ¬IsTruncated (Message.decode crowdedMessage.image) := by
    rw [← List.append_nil crowdedMessage.image, Message.decode_image hf]
    exact id
  obtain ⟨happend, -, -, hbuffer⟩ := stale_bytes_ignored crowdedMessage.image [0xFF]
  exact ⟨_, _, hwrite, hread, (hbuffer _ _ _ _ _ hencode hwrite hread).1, hshort, happend hshort⟩

end Wire

end Microkernel
