import Microkernel.Proofs.Wire.Reading
import Microkernel.Wire.Message

/-!
# The layout of a message

What `Message.encode` gives and when: a message that keeps all limits (`Message.Fits`) has exactly one image (`Message.image`), and a
message that breaks one has none (`encode_eq_ok_iff`). Every part of the image is as long as its counts say, a whole number of words.
-/

namespace Microkernel.Wire

namespace Message

/-- All that stands before the data section. -/
def leadBytes (m : Message) : Bytes :=
  m.headerBytes ++ m.specialBytes ++ m.sendStatics.flatMap staticBytes
  ++ (m.sendBuffers ++ m.receiveBuffers ++ m.exchangeBuffers).flatMap bufferBytes

/-- The data section, filled up to whole words. -/
def paddedData (m : Message) : Bytes := padTo (alignUp m.data.length 4) m.data

/-- The body of a message is what leads it and its data. -/
theorem bodyBytes_eq (m : Message) : m.bodyBytes = m.leadBytes ++ m.paddedData := rfl

/-- The byte at which the receive list begins. -/
def listStart (m : Message) : Nat := if m.receiveListOffset = 0 then m.bodyBytes.length else m.receiveListOffset.toNat * 4

/-- The zeros between the data section and the receive list. -/
def listGap (m : Message) : Bytes := zeros (m.listStart - m.bodyBytes.length)

/-- The message laid out, whether or not it fits a message buffer. -/
def image (m : Message) : Bytes := m.bodyBytes ++ m.listGap ++ m.receiveList.flatMap receiveEntryBytes

/-- The limits that a message has to keep. -/
structure Fits (m : Message) : Prop where
  sendStatics : m.sendStatics.length ≤ maxDescriptors
  sendBuffers : m.sendBuffers.length ≤ maxDescriptors
  receiveBuffers : m.receiveBuffers.length ≤ maxDescriptors
  exchangeBuffers : m.exchangeBuffers.length ≤ maxDescriptors
  copyHandles : m.copyHandles.length ≤ maxDescriptors
  moveHandles : m.moveHandles.length ≤ maxDescriptors
  receiveList : m.receiveList.length ≤ maxDescriptors - explicitListBase
  data : piecesOf m.data.length 4 ≤ maxDataWords
  start : m.bodyBytes.length ≤ m.listStart
  size : m.image.length ≤ messageBufferSize

/-! ## When a message has an image -/

section Steps

variable {ε β : Type} {b : β}

/-- A count check lets the rest run exactly if the count is within its limit. -/
theorem checkCount_bind (list : DescriptorList) (count limit : Nat) (f : Unit → Except ProtocolError β) :
    checkCount list count limit >>= f = .ok b ↔ count ≤ limit ∧ f () = .ok b := by
  unfold checkCount
  split
  · simp [bind, Except.bind]; omega
  · simp [bind, Except.bind]; omega

/-- A guard lets the rest run exactly if it does not strike. -/
theorem throw_bind (c : Prop) [Decidable c] (e : ε) (f : Unit → Except ε β) :
    (if c then (throw e : Except ε Unit) >>= f else f ()) = .ok b ↔ ¬c ∧ f () = .ok b := by
  split
  · simp_all [bind, Except.bind, throw, throwThe, MonadExceptOf.throw]
  · simp_all

/-- The receive list is placed exactly if it begins behind the data section. -/
theorem listStart_bind (m : Message) (f : Nat → Except ProtocolError β) :
    (if m.receiveListOffset = 0 then pure m.bodyBytes.length >>= f
      else receiveListStart m.receiveListOffset.toNat m.bodyBytes.length >>= f) = .ok b ↔
    m.bodyBytes.length ≤ m.listStart ∧ f m.listStart = .ok b := by
  unfold receiveListStart listStart
  split
  · simp [bind, Except.bind, pure, Except.pure]
  · split
    · simp [bind, Except.bind]; omega
    · simp [bind, Except.bind]; omega

end Steps

/-- A message has an image exactly if it keeps all limits, and then it is this one. -/
theorem encode_eq_ok_iff (m : Message) (b : Bytes) : m.encode = .ok b ↔ m.Fits ∧ m.image = b := by
  unfold encode
  simp only [checkCount_bind, throw_bind, listStart_bind]
  constructor
  · rintro ⟨h1, h2, h3, h4, h5, h6, h7, h8, h9, h10, h⟩
    exact ⟨⟨h1, h2, h3, h4, h5, h6, h7, Nat.not_lt.1 h8, h9, Nat.not_lt.1 h10⟩, Except.ok.inj h⟩
  · rintro ⟨⟨h1, h2, h3, h4, h5, h6, h7, h8, h9, h10⟩, h⟩
    exact ⟨h1, h2, h3, h4, h5, h6, h7, Nat.not_lt.2 h8, h9, Nat.not_lt.2 h10, congrArg Except.ok h⟩

/-! ## How long the parts are -/

/-- Pieces of one length, one behind the other. -/
theorem length_flatMap_of_const {α : Type} {write : α → Bytes} {n : Nat} (h : ∀ x, (write x).length = n) (xs : List α) :
    (xs.flatMap write).length = xs.length * n := by
  induction xs with
  | nil => simp
  | cons x xs ih => rw [List.flatMap_cons, List.length_append, ih, h, List.length_cons, Nat.succ_mul, Nat.add_comm]

/-- A static descriptor takes eight bytes. -/
@[simp] theorem length_staticBytes (d : StaticDescriptor) : (staticBytes d).length = 8 := by
  simp [staticBytes]

/-- A buffer descriptor takes twelve bytes. -/
@[simp] theorem length_bufferBytes (d : BufferDescriptor) : (bufferBytes d).length = 12 := by
  simp [bufferBytes]

/-- A receive-list entry takes eight bytes. -/
@[simp] theorem length_receiveEntryBytes (e : ReceiveEntry) : (receiveEntryBytes e).length = 8 := by
  simp [receiveEntryBytes]

/-- The header takes eight bytes. -/
@[simp] theorem length_headerBytes (m : Message) : m.headerBytes.length = 8 := by
  simp [headerBytes]

/-- A process id takes eight bytes, if there is one. -/
theorem length_pidBytes (pid : Option UInt64) :
    (pid.elim [] fun pid => word64 pid.toNat).length = if pid.isSome then 8 else 0 := by
  cases pid <;> simp

/-- A special header takes a word, two for the process id and one for each handle. -/
theorem length_specialBytes (m : Message) : m.specialBytes.length =
    if m.hasSpecialHeader then (1 + (if m.pid.isSome then 2 else 0) + m.copyHandles.length + m.moveHandles.length) * 4 else 0 := by
  unfold specialBytes
  have hh : ∀ h : UInt32, (word32 h.toNat).length = 4 := fun h => length_word32 _
  split
  · simp only [List.length_append, length_word32, length_pidBytes, length_flatMap_of_const hh]
    split <;> omega
  · rfl

/-- The data section begins where its offset says. -/
theorem length_leadBytes (m : Message) : m.leadBytes.length = m.computeDataOffset := by
  simp only [leadBytes, List.length_append, length_headerBytes, length_specialBytes,
    length_flatMap_of_const length_staticBytes, length_flatMap_of_const length_bufferBytes, computeDataOffset]
  split <;> omega

/-- The data section takes whole words. -/
theorem length_paddedData (m : Message) : m.paddedData.length = piecesOf m.data.length 4 * 4 := by
  simp only [paddedData, padTo, List.length_append, length_zeros, alignUp, piecesOf]
  omega

/-- The body ends behind the data section. -/
theorem length_bodyBytes (m : Message) : m.bodyBytes.length = m.computeDataOffset + piecesOf m.data.length 4 * 4 := by
  rw [bodyBytes_eq, List.length_append, length_leadBytes, length_paddedData]

/-- The receive list begins after the gap. -/
theorem length_bodyBytes_listGap {m : Message} (h : m.Fits) : (m.bodyBytes ++ m.listGap).length = m.listStart := by
  have := h.start
  rw [List.length_append, listGap, length_zeros]
  omega

/-- The data section begins, and the receive list begins, at a word. -/
theorem listStart_mod (m : Message) : m.listStart % 4 = 0 := by
  unfold listStart
  split
  · rw [length_bodyBytes, computeDataOffset]
    omega
  · omega

/-- An image is a whole number of words. -/
theorem length_image_mod {m : Message} (h : m.Fits) : m.image.length % 4 = 0 := by
  have hs := listStart_mod m
  rw [image, List.length_append, length_bodyBytes_listGap h, length_flatMap_of_const length_receiveEntryBytes]
  omega

/-- A receive list that is placed begins inside the message buffer, so its offset is small. -/
theorem receiveListOffset_lt {m : Message} (h : m.Fits) : m.receiveListOffset.toNat < widthLimit 11 := by
  have hw : widthLimit 11 = 2048 := rfl
  have hb : messageBufferSize = 256 := rfl
  have hl := h.size
  have hs := length_bodyBytes_listGap h
  rw [image, List.length_append, hs, hb] at hl
  unfold listStart at hl
  split at hl
  · next h0 => rw [h0, hw]; decide
  · omega

end Message

end Microkernel.Wire
