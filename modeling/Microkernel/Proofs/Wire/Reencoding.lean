import Microkernel.Proofs.Wire.Decoded

/-!
# A decoded message can be written again

One message has several images: a single receive-list entry may be announced by mode two or by its count, no entry by mode zero or
one, a special header may be there without holding anything, and a receive list may stand behind a gap of any bytes. Whatever image
a message was read off, the writer's limits admit it, and its own image is the one canonical spelling of its content, which is
never longer (`encode_decode`).
-/

namespace Microkernel.Wire

namespace Message

variable {m : Message} {size : Nat}

/-- Two messages say the same; only where their data sections were found may differ. -/
def SameContent (m m' : Message) : Prop := { m' with dataOffset := m.dataOffset } = m

/-- What is written does not depend on where the data section was found. -/
theorem encode_eq_of_sameContent {m' : Message} (h : m.SameContent m') : m'.encode = m.encode := by
  rw [← h]
  rfl

/-- A list whose elements stay what they are stays what it is. -/
theorem map_eq_self {α : Type} {f : α → α} {xs : List α} (h : ∀ x ∈ xs, f x = x) : xs.map f = xs := by
  rw [List.map_congr_left h, List.map_id']

namespace Legible

/-- The wire carries all of a message that was read off it. -/
theorem onWire_eq (h : m.Legible size) : m.onWire = { m with dataOffset := m.computeDataOffset } := by
  have hw := h.words
  have hdata : padTo (alignUp m.data.length 4) m.data = m.data := by
    have ha : alignUp m.data.length 4 = m.data.length := by unfold alignUp; omega
    rw [padTo, ha, Nat.sub_self]
    exact List.append_nil _
  unfold onWire
  rw [map_eq_self h.sendStatics_carried, map_eq_self h.sendBuffers_carried, map_eq_self h.receiveBuffers_carried,
    map_eq_self h.exchangeBuffers_carried, map_eq_self h.receiveList_carried, hdata]

/-- Written again, the message ends its data section no later than it was found. -/
theorem length_bodyBytes_le (h : m.Legible size) : m.bodyBytes.length ≤ m.dataOffset + m.data.length := by
  have hw := h.words
  have ho := h.dataOffset
  rw [length_bodyBytes]
  unfold piecesOf
  omega

variable (hlist : m.receiveList ≠ [] ∨ m.receiveListOffset = 0)

include hlist

/-- The receive list finds its place behind the data section. -/
theorem length_bodyBytes_le_listStart (h : m.Legible size) : m.bodyBytes.length ≤ m.listStart := by
  have hb := h.length_bodyBytes_le
  unfold Message.listStart
  split
  · exact Nat.le_refl _
  · next h0 =>
    have hs := h.listStart (hlist.resolve_right h0)
    rw [foundListAt, if_neg h0] at hs
    omega

/-- Written again, the message is no longer than the image that it was read off. -/
theorem length_image_le (h : m.Legible size) : m.image.length ≤ size := by
  have hb := h.length_bodyBytes_le
  have hs := h.length_bodyBytes_le_listStart hlist
  have hi : m.image.length = m.listStart + m.receiveList.length * 8 := by
    rw [image, List.length_append, List.length_append, listGap, length_zeros, length_flatMap_of_const length_receiveEntryBytes]
    omega
  rw [hi]
  by_cases hl : m.receiveList = []
  · have he := h.dataEnd
    rw [Message.listStart, if_pos (hlist.resolve_left (not_not_intro hl)), hl, List.length_nil]
    omega
  · have he := h.listEnd hl
    unfold foundListAt at he
    unfold Message.listStart
    by_cases h0 : m.receiveListOffset = 0
    · rw [if_pos h0] at he ⊢
      omega
    · rwa [if_neg h0] at he ⊢

/-- What could be read can be written. -/
theorem fits (h : m.Legible size) (hsize : size ≤ messageBufferSize) : m.Fits where
  sendStatics := h.sendStatics
  sendBuffers := h.sendBuffers
  receiveBuffers := h.receiveBuffers
  exchangeBuffers := h.exchangeBuffers
  copyHandles := h.copyHandles
  moveHandles := h.moveHandles
  receiveList := h.receiveList
  data := h.dataWords
  start := h.length_bodyBytes_le_listStart hlist
  size := Nat.le_trans (h.length_image_le hlist) hsize

end Legible

end Message

/-- A message that was read off a message buffer can be written again. Its image is no longer than the one it was read off, and is
read as the same message with the data section where it belongs. All images of one content are written again as one. -/
theorem encode_decode (image : Bytes) (m : Message) (hsize : image.length ≤ messageBufferSize) (hd : Message.decode image = .ok m)
    (hlist : m.receiveList ≠ [] ∨ m.receiveListOffset = 0) :
    ∃ canonical, m.encode = .ok canonical ∧ canonical.length ≤ image.length ∧
      Message.decode canonical = .ok { m with dataOffset := m.computeDataOffset } ∧
      ∀ other m', Message.decode other = .ok m' → m.SameContent m' → m'.encode = .ok canonical := by
  have hl := Message.decode_legible hd
  have hf := hl.fits hlist hsize
  have he : m.encode = .ok m.image := (Message.encode_eq_ok_iff m m.image).2 ⟨hf, rfl⟩
  refine ⟨m.image, he, hl.length_image_le hlist, ?_, ?_⟩
  · have hr := Message.decode_image hf []
    rwa [List.append_nil, hl.onWire_eq] at hr
  · intro other m' _ hsame
    rw [Message.encode_eq_of_sameContent hsame, he]

/-- An image whose header announces a receive list by a mode that has another spelling, and a special header that holds nothing; the
list stands behind a gap of stale bytes. -/
def looseImage (mode listOffset : Nat) (list : Bytes) : Bytes :=
  word32 4 ++ word32 (packFields [(10, 1), (4, mode), (6, 0), (11, listOffset), (1, 1)]) ++ word32 0
  ++ [1, 2, 3, 4] ++ List.replicate 16 0xEE ++ list

/-- What a loose image without a receive list says. -/
def looseMessage : Message where
  messageType := 4
  data := [1, 2, 3, 4]
  dataOffset := 12

/-- Mode two announces one entry and mode one none; both images are written again without their empty special header. -/
theorem encode_decode_looseImage :
    (∃ m canonical, Message.decode (looseImage 2 8 (word64 0x40000000001234)) = .ok m ∧ m.receiveList.length = 1 ∧
      m.encode = .ok canonical ∧ Message.decode canonical = .ok { m with dataOffset := 8 }) ∧
    ∃ canonical, Message.decode (looseImage 1 0 []) = .ok looseMessage ∧ looseMessage.encode = .ok canonical ∧
      canonical.length = 12 ∧ Message.decode canonical = .ok { looseMessage with dataOffset := 8 } := by
  constructor
  · let m : Message := { looseMessage with receiveList := [{ address := 0x1234, size := 0x40 }], receiveListOffset := 8 }
    have hd : Message.decode (looseImage 2 8 (word64 0x40000000001234)) = .ok m := by rfl
    obtain ⟨canonical, he, -, hr, -⟩ := encode_decode _ m (by decide) hd (.inl (by decide))
    exact ⟨m, canonical, hd, rfl, he, hr⟩
  · have hd : Message.decode (looseImage 1 0 []) = .ok looseMessage := by rfl
    obtain ⟨canonical, he, -, hr, -⟩ := encode_decode _ looseMessage (by decide) hd (.inr rfl)
    refine ⟨canonical, hd, he, ?_, hr⟩
    obtain ⟨-, rfl⟩ := (Message.encode_eq_ok_iff _ _).1 he
    decide +kernel

end Microkernel.Wire
