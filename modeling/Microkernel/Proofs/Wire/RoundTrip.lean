import Microkernel.Proofs.Wire.Layout

/-!
# A message is read as it was written

`Message.onWire` is what is left of a message when every field is cut to the width it has in an image. `decode_encode` says that an
image, whatever stands behind it, is read as exactly that: every list in its order, the data section filled up to whole words.
-/

namespace Microkernel.Wire

/-! ## What the wire carries -/

/-- A static descriptor has six bits for its index and 42 for its address. -/
def StaticDescriptor.onWire (d : StaticDescriptor) : StaticDescriptor :=
  { d with index := .ofNat (d.index.toNat % widthLimit 6), address := .ofNat (d.address.toNat % widthLimit 42) }

/-- A buffer descriptor has 58 bits for its address and 36 for its size. -/
def BufferDescriptor.onWire (d : BufferDescriptor) : BufferDescriptor :=
  { d with address := .ofNat (d.address.toNat % widthLimit 58), size := .ofNat (d.size.toNat % widthLimit 36) }

/-- A receive-list entry has 48 bits for its address. -/
def ReceiveEntry.onWire (e : ReceiveEntry) : ReceiveEntry :=
  { e with address := .ofNat (e.address.toNat % widthLimit 48) }

/-- What an image carries of a message: descriptors cut to their fields, and the data section filled up with zeros to whole words, at
the offset where it was put. -/
def Message.onWire (m : Message) : Message :=
  { m with
    sendStatics := m.sendStatics.map StaticDescriptor.onWire
    sendBuffers := m.sendBuffers.map BufferDescriptor.onWire
    receiveBuffers := m.receiveBuffers.map BufferDescriptor.onWire
    exchangeBuffers := m.exchangeBuffers.map BufferDescriptor.onWire
    receiveList := m.receiveList.map ReceiveEntry.onWire
    data := padTo (alignUp m.data.length 4) m.data
    dataOffset := m.computeDataOffset }

/-! ## Numbers that a field holds whole -/

theorem ofNat_toNat_mod16 (n : UInt16) : UInt16.ofNat (n.toNat % widthLimit 16) = n := by
  rw [Nat.mod_eq_of_lt (show n.toNat < widthLimit 16 from n.toNat_lt), UInt16.ofNat_toNat]

theorem ofNat_toNat_mod32 (n : UInt32) : UInt32.ofNat (n.toNat % widthLimit 32) = n := by
  rw [Nat.mod_eq_of_lt (show n.toNat < widthLimit 32 from n.toNat_lt), UInt32.ofNat_toNat]

theorem ofNat_toNat_mod64 (n : UInt64) : UInt64.ofNat (n.toNat % widthLimit 64) = n := by
  rw [Nat.mod_eq_of_lt (show n.toNat < widthLimit 64 from n.toNat_lt), UInt64.ofNat_toNat]

/-- The code of a buffer mode fits two bits. -/
theorem code_lt (mode : BufferMode) : mode.code < widthLimit 2 := by
  cases mode <;> decide

/-- A buffer mode is read back from its code. -/
theorem ofCode?_code (mode : BufferMode) : BufferMode.ofCode? mode.code = some mode := by
  cases mode <;> rfl

/-! ## Numbers put together from their pieces -/

/-- The address of a static descriptor. -/
theorem packFields_address42 (n : Nat) :
    packFields [(32, n % widthLimit 32), (4, bits n 32 4), (6, bits n 36 6)] = n % widthLimit 42 := by
  have h := packFields_cuts n 0 [32, 4, 6]
  simp only [cuts, bits_zero, Nat.zero_add, Nat.reduceAdd] at h
  exact h

/-- The address of a buffer descriptor. -/
theorem packFields_address58 (n : Nat) :
    packFields [(32, n % widthLimit 32), (4, bits n 32 4), (22, bits n 36 22)] = n % widthLimit 58 := by
  have h := packFields_cuts n 0 [32, 4, 22]
  simp only [cuts, bits_zero, Nat.zero_add, Nat.reduceAdd] at h
  exact h

/-- The size of a buffer descriptor. -/
theorem packFields_size36 (n : Nat) : packFields [(32, n % widthLimit 32), (4, bits n 32 4)] = n % widthLimit 36 := by
  have h := packFields_cuts n 0 [32, 4]
  simp only [cuts, bits_zero, Nat.zero_add] at h
  exact h

/-- The address of a receive-list entry. -/
theorem packFields_address48 (n : Nat) : packFields [(32, n % widthLimit 32), (16, bits n 32 16)] = n % widthLimit 48 := by
  have h := packFields_cuts n 0 [32, 16]
  simp only [cuts, bits_zero, Nat.zero_add] at h
  exact h

namespace Message

open Decoder

/-! ## The parts of a message -/

/-- The word of a handle is read as the handle. -/
theorem reads_handle (h : UInt32) : Reads handleDecoder (word32 h.toNat) h := by
  refine ((reads_word h.toNat).bind_pure UInt32.ofNat).of_eq ?_
  exact ofNat_toNat_mod32 h

/-- A process id is there exactly if the special header says so. -/
theorem reads_pid (pid : Option UInt64) :
    Reads (if pid.isSome.toNat = 1 then (some ∘ UInt64.ofNat) <$> longWord else pure none)
      (pid.elim [] fun pid => word64 pid.toNat) pid := by
  cases pid with
  | none => exact Reads.pure none
  | some pid =>
    refine ((reads_longWord pid.toNat).map (some ∘ UInt64.ofNat)).of_eq ?_
    exact congrArg some (ofNat_toNat_mod64 pid)

/-- The bytes of a static descriptor are read as what the wire carries of it. -/
theorem reads_static (d : StaticDescriptor) : Reads staticDecoder (staticBytes d) d.onWire := by
  refine ((reads_packFields _ (by exact Nat.le_refl 32)).bind ((reads_word _).bind_pure _)).of_eq ?_
  simp [StaticDescriptor.onWire, packFields_address42, ofNat_toNat_mod16]

/-- The bytes of a receive-list entry are read as what the wire carries of it. -/
theorem reads_receiveEntry (e : ReceiveEntry) : Reads receiveEntryDecoder (receiveEntryBytes e) e.onWire := by
  refine ((reads_word _).bind ((reads_packFields _ (by exact Nat.le_refl 32)).bind_pure _)).of_eq ?_
  simp [ReceiveEntry.onWire, packFields_address48, ofNat_toNat_mod16]

/-- The bytes of a buffer descriptor are read as what the wire carries of it. -/
theorem reads_buffer (d : BufferDescriptor) : Reads bufferDecoder (bufferBytes d) d.onWire := by
  unfold bufferBytes
  rw [List.append_assoc]
  refine (reads_word _).bind ((reads_word _).bind ((reads_packFields _ (by exact Nat.le_refl 32)).bind_end ?_))
  have hm : d.mode.code % widthLimit 2 = d.mode.code := Nat.mod_eq_of_lt (code_lt d.mode)
  simp only [bits_packFields_cons, hm, ofCode?_code]
  refine (Reads.pure _).of_eq ?_
  simp [BufferDescriptor.onWire, packFields_address58, packFields_size36]

/-- The special header is read back: which handles follow, the process id, the handles. -/
theorem reads_special (m : Message) (hc : m.copyHandles.length ≤ maxDescriptors) (hm : m.moveHandles.length ≤ maxDescriptors)
    (hs : m.hasSpecialHeader = true) : Reads specialDecoder m.specialBytes (m.pid, m.copyHandles, m.moveHandles) := by
  have hc4 : m.copyHandles.length % widthLimit 4 = m.copyHandles.length := Nat.mod_eq_of_lt (Nat.lt_succ_of_le hc)
  have hm4 : m.moveHandles.length % widthLimit 4 = m.moveHandles.length := Nat.mod_eq_of_lt (Nat.lt_succ_of_le hm)
  have hp : m.pid.isSome.toNat % widthLimit 1 = m.pid.isSome.toNat := by cases m.pid <;> rfl
  unfold specialBytes
  rw [if_pos hs, List.append_assoc, List.flatMap_append]
  refine (reads_packFields _ (by exact (by decide : 9 ≤ 32))).bind ?_
  simp only [Nat.reduceLeDiff, bits_packFields_of_le, bits_packFields_cons, Nat.reduceSub, Nat.le_refl, Nat.sub_self, hc4, hm4,
    hp, ite_bind]
  refine (reads_pid m.pid).bind (((reads_times reads_handle _).bind ((reads_times reads_handle _).bind_pure _)).of_eq ?_)
  simp

/-- The special header, where there is one. -/
theorem reads_special? {m : Message} (h : m.Fits) :
    Reads (if m.hasSpecialHeader.toNat = 1 then specialDecoder else pure (none, [], [])) m.specialBytes
      (m.pid, m.copyHandles, m.moveHandles) := by
  cases hs : m.hasSpecialHeader with
  | true => exact reads_special m h.copyHandles h.moveHandles hs
  | false =>
    simp only [hasSpecialHeader, Bool.or_eq_false_iff, Option.isSome_eq_false_iff, Option.isNone_iff_eq_none,
      Bool.not_eq_false', List.isEmpty_iff] at hs
    obtain ⟨⟨hp, hc⟩, hm⟩ := hs
    rw [specialBytes, hasSpecialHeader, hp, hc, hm]
    exact Reads.pure (none, [], [])

/-- The mode field tells how many entries the receive list has. -/
theorem receiveListLength_mode (m : Message) : receiveListLength m.receiveListMode = m.receiveList.length := by
  unfold receiveListMode
  cases m.receiveList with
  | nil => rfl
  | cons e rest =>
    have hb : explicitListBase + (rest.length + 1) = rest.length + 3 := by unfold explicitListBase; omega
    rw [List.isEmpty_cons, if_neg (by decide), List.length_cons, hb]
    rfl

/-- The receive-list mode of a message that fits takes four bits. -/
theorem receiveListMode_lt {m : Message} (h : m.Fits) : m.receiveListMode < widthLimit 4 := by
  have hl := h.receiveList
  have hw : widthLimit 4 = 16 := rfl
  unfold receiveListMode
  unfold maxDescriptors explicitListBase at *
  split <;> omega

/-- The gap that is skipped: a receive list without entries is not looked for. -/
def skippedGap (m : Message) : Bytes := if m.receiveList.isEmpty then [] else m.listGap

/-- The gap before a receive list is skipped. -/
theorem readsAt_seekReceiveList {m : Message} (h : m.Fits) :
    ReadsAt (seekReceiveList m.receiveList.length m.receiveListOffset.toNat) m.bodyBytes m.skippedGap () := by
  unfold seekReceiveList skippedGap
  by_cases hl : m.receiveList = []
  · rw [hl, if_neg (by simp)]
    exact ReadsAt.pure _ ()
  have he : m.receiveList.isEmpty = false := by simpa using hl
  have hn : 0 < m.receiveList.length := List.length_pos_iff.2 hl
  rw [he]
  by_cases h0 : m.receiveListOffset = 0
  · have hg : m.listGap = [] := by rw [listGap, listStart, if_pos h0, Nat.sub_self]; rfl
    rw [h0, if_neg (by simp), hg]
    exact ReadsAt.pure _ ()
  · have ho : m.receiveListOffset.toNat ≠ 0 := fun e => h0 (UInt16.toNat_inj.1 e)
    have hs : m.listStart = m.receiveListOffset.toNat * 4 := if_neg h0
    have hstart : receiveListStart m.receiveListOffset.toNat m.bodyBytes.length = .ok (m.bodyBytes ++ m.listGap).length := by
      have := h.start
      rw [receiveListStart, if_neg (by omega), length_bodyBytes_listGap h, hs]
    rw [if_pos ⟨hn, ho⟩]
    refine (readsAt_position _).bind_nil ?_
    rw [hstart]
    exact readsAt_seek _ _

/-- What is read of an image: all of it, but for the gap before a receive list without entries. -/
def readBytes (m : Message) : Bytes := m.bodyBytes ++ m.skippedGap ++ m.receiveList.flatMap receiveEntryBytes

/-- The bytes of a message that fits are read as what the wire carries of it. -/
theorem readsAt_decoder {m : Message} (h : m.Fits) : ReadsAt decoder [] m.readBytes m.onWire := by
  have hc {n : Nat} (hn : n ≤ maxDescriptors) : n % widthLimit 4 = n := Nat.mod_eq_of_lt (Nat.lt_succ_of_le hn)
  have hd : piecesOf m.data.length 4 % widthLimit 10 = piecesOf m.data.length 4 := Nat.mod_eq_of_lt (Nat.lt_succ_of_le h.data)
  have hm : m.receiveListMode % widthLimit 4 = m.receiveListMode := Nat.mod_eq_of_lt (receiveListMode_lt h)
  have ho : m.receiveListOffset.toNat % widthLimit 11 = m.receiveListOffset.toNat := Nat.mod_eq_of_lt (receiveListOffset_lt h)
  have hs : m.hasSpecialHeader.toNat % widthLimit 1 = m.hasSpecialHeader.toNat := by cases m.hasSpecialHeader <;> rfl
  unfold readBytes bodyBytes headerBytes decoder
  simp only [List.append_assoc, List.flatMap_append]
  refine (reads_packFields _ (by exact Nat.le_refl 32) _).bind ?_
  refine (reads_packFields _ (by exact Nat.le_refl 32) _).bind ?_
  simp only [Nat.reduceLeDiff, bits_packFields_of_le, bits_packFields_cons, Nat.reduceSub, Nat.le_refl, Nat.sub_self,
    hc h.sendStatics, hc h.sendBuffers, hc h.receiveBuffers, hc h.exchangeBuffers, hd, hm, ho, hs, ite_bind]
  refine (reads_special? h _).bind ?_
  refine (reads_times reads_static _ _).bind ?_
  refine (reads_times reads_buffer _ _).bind ?_
  refine (reads_times reads_buffer _ _).bind ?_
  refine (reads_times reads_buffer _ _).bind ?_
  refine (readsAt_position _).bind_nil ?_
  -- all that was read so far stands before the data section
  generalize hb : _ ++ m.exchangeBuffers.flatMap bufferBytes = before
  obtain rfl : m.leadBytes = before := by
    rw [← hb, leadBytes, headerBytes]
    simp only [List.flatMap_append, List.append_assoc, List.nil_append]
  have hdata : Reads (take (piecesOf m.data.length 4 * 4)) m.paddedData m.paddedData := by
    rw [← length_paddedData]
    exact reads_take _
  have hlist := reads_times reads_receiveEntry m.receiveList
  rw [receiveListLength_mode, length_leadBytes]
  refine (hdata _).bind ((readsAt_seekReceiveList h).bind (((hlist.bind_pure _).of_eq ?_) _))
  rw [ofNat_toNat_mod16, UInt16.ofNat_toNat]
  rfl

/-- An image begins with the bytes that are read of it. -/
theorem image_eq_readBytes (m : Message) : ∃ rest, m.image = m.readBytes ++ rest := by
  unfold image readBytes skippedGap
  by_cases hl : m.receiveList = []
  · refine ⟨m.listGap, ?_⟩
    simp [hl]
  · have he : m.receiveList.isEmpty = false := by simpa using hl
    exact ⟨[], by rw [he, List.append_nil]; rfl⟩

/-- An image is read as what the wire carries of its message, whatever stands behind it. -/
theorem decode_image {m : Message} (h : m.Fits) (rest : Bytes) : decode (m.image ++ rest) = .ok m.onWire := by
  obtain ⟨unread, hi⟩ := m.image_eq_readBytes
  rw [hi, List.append_assoc]
  exact run_eq_of_readsAt (readsAt_decoder h) _

end Message

/-- A message that can be written fills the message buffer at most, in whole words, and is read back as the wire carries it. -/
theorem decode_encode (m : Message) (image : Bytes) (h : m.encode = .ok image) :
    image.length ≤ messageBufferSize ∧ image.length % 4 = 0 ∧ Message.decode image = .ok m.onWire := by
  obtain ⟨hf, rfl⟩ := (Message.encode_eq_ok_iff m image).1 h
  refine ⟨hf.size, Message.length_image_mod hf, ?_⟩
  have hd := Message.decode_image hf []
  rwa [List.append_nil] at hd

/-- A message with every section: addresses and sizes wider than their fields, a data section that ends inside a word and a receive
list behind a gap. -/
def crowdedMessage : Message where
  messageType := 4
  pid := some 0x51
  copyHandles := [0x8001]
  moveHandles := [0x18002, 0x28003]
  sendStatics := [{ index := 0x45, address := 0x7FF12345678, size := 0x40 }]
  sendBuffers := [{ address := 0xFFFFFFFFFFFFFFFF, size := 0x1F00001000, mode := .nonDevice }]
  receiveBuffers := [{ address := 0x7F87654320, size := 0x300001000, mode := .nonSecure }]
  receiveList := [{ address := 0x1ABCD12340000, size := 0x100 }]
  receiveListOffset := 40
  data := [1, 2, 3, 4, 5]

/-- A message with every section is read back with its fields cut. -/
theorem decode_encode_crowdedMessage :
    ∃ image, crowdedMessage.encode = .ok image ∧ image.length = 168 ∧ Message.decode image = .ok crowdedMessage.onWire := by
  have hf : crowdedMessage.Fits := by constructor <;> decide +kernel
  have h := (Message.encode_eq_ok_iff _ _).2 ⟨hf, rfl⟩
  exact ⟨_, h, by decide +kernel, (decode_encode crowdedMessage _ h).2.2⟩

end Microkernel.Wire
