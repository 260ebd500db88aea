import Microkernel.Wire.Decoder

/-!
# Messages

The kernel's part of an inter-process message: a two-word header, a special header with handles, four lists of descriptors, the
data section and the receive list. `Message.encode` lays a message out in a message buffer and `Message.decode` reads it back.
-/

namespace Microkernel.Wire

/-- The size of a thread's message buffer. -/
def messageBufferSize : Nat := 0x100

/-- The most entries a four-bit count field can announce. -/
def maxDescriptors : Nat := 15

/-- The receive list's mode is its length plus two. -/
def explicitListBase : Nat := 2

/-- The most data words the header can announce. -/
def maxDataWords : Nat := 0x3FF

/-- The memory attribute of a mapped buffer. -/
inductive BufferMode
  | normal
  | nonSecure
  | nonDevice
  deriving DecidableEq, Repr, Inhabited

namespace BufferMode

/-- The mode's two-bit code. -/
def code : BufferMode → Nat
  | normal => 0
  | nonSecure => 1
  | nonDevice => 3

/-- The mode with a given code; two is reserved. -/
def ofCode? : Nat → Option BufferMode
  | 0 => some normal
  | 1 => some nonSecure
  | 3 => some nonDevice
  | _ => none

end BufferMode

/-- Client data copied into the server's pointer buffer; in a response, the size written to a receive-list entry. -/
structure StaticDescriptor where
  index : UInt8
  address : UInt64
  size : UInt16
  deriving DecidableEq, Repr, Inhabited

/-- Client memory mapped into the server for the call. -/
structure BufferDescriptor where
  address : UInt64
  size : UInt64
  mode : BufferMode := .normal
  deriving DecidableEq, Repr, Inhabited

/-- Client memory that the server may fill with pointer output. -/
structure ReceiveEntry where
  address : UInt64
  size : UInt16
  deriving DecidableEq, Repr, Inhabited

/-- A message as the kernel sees it. -/
structure Message where
  messageType : UInt16 := 0
  /-- The sender's process id, when the message carries one. -/
  pid : Option UInt64 := none
  copyHandles : List UInt32 := []
  moveHandles : List UInt32 := []
  sendStatics : List StaticDescriptor := []
  sendBuffers : List BufferDescriptor := []
  receiveBuffers : List BufferDescriptor := []
  exchangeBuffers : List BufferDescriptor := []
  receiveList : List ReceiveEntry := []
  /-- The word at which the receive list begins; zero puts it right behind the data section. -/
  receiveListOffset : UInt16 := 0
  /-- The data section, alignment padding included. -/
  data : Bytes := []
  /-- The byte at which the data section was found. -/
  dataOffset : Nat := 0
  deriving DecidableEq, Repr, Inhabited

namespace Message

/-- Handles and a process id travel in a special header. -/
def hasSpecialHeader (m : Message) : Bool := m.pid.isSome || !m.copyHandles.isEmpty || !m.moveHandles.isEmpty

/-- The byte at which the data section of this message begins. -/
def computeDataOffset (m : Message) : Nat :=
  let special :=
    if m.hasSpecialHeader then
      1 + (if m.pid.isSome then 2 else 0) + m.copyHandles.length + m.moveHandles.length
    else 0
  let descriptors := m.sendStatics.length * 2
    + (m.sendBuffers.length + m.receiveBuffers.length + m.exchangeBuffers.length) * 3
  (2 + special + descriptors) * 4

/-- The mode field that announces the receive list. -/
def receiveListMode (m : Message) : Nat :=
  if m.receiveList.isEmpty then 0 else explicitListBase + m.receiveList.length

/-- Refuses a list that its count field cannot announce. -/
def checkCount (list : DescriptorList) (count : Nat) (limit : Nat := maxDescriptors) : Except ProtocolError Unit :=
  if limit < count then .error (.tooManyDescriptors list count) else .ok ()

/-- The byte at which a receive list placed at word `offset` begins; it must not reach into the data section. -/
def receiveListStart (offset dataEnd : Nat) : Except ProtocolError Nat :=
  if offset * 4 < dataEnd then .error (.invalidReceiveListOffset offset (dataEnd / 4)) else .ok (offset * 4)

/-! ## Writing -/

/-- The two header words. -/
def headerBytes (m : Message) : Bytes :=
  word32 (packFields [(16, m.messageType.toNat), (4, m.sendStatics.length), (4, m.sendBuffers.length),
    (4, m.receiveBuffers.length), (4, m.exchangeBuffers.length)])
  ++ word32 (packFields [(10, piecesOf m.data.length 4), (4, m.receiveListMode), (6, 0), (11, m.receiveListOffset.toNat),
    (1, m.hasSpecialHeader.toNat)])

/-- The special header: which handles follow, the process id, the handles. -/
def specialBytes (m : Message) : Bytes :=
  if m.hasSpecialHeader then
    word32 (packFields [(1, m.pid.isSome.toNat), (4, m.copyHandles.length), (4, m.moveHandles.length)])
    ++ (m.pid.elim [] fun pid => word64 pid.toNat)
    ++ (m.copyHandles ++ m.moveHandles).flatMap fun handle => word32 handle.toNat
  else []

/-- Two words of a static descriptor; the address is split over three fields. -/
def staticBytes (d : StaticDescriptor) : Bytes :=
  word32 (packFields [(6, d.index.toNat), (6, bits d.address.toNat 36 6), (4, bits d.address.toNat 32 4),
    (16, d.size.toNat)])
  ++ word32 d.address.toNat

/-- Three words of a buffer descriptor; address and size are split over fields. -/
def bufferBytes (d : BufferDescriptor) : Bytes :=
  word32 d.size.toNat ++ word32 d.address.toNat
  ++ word32 (packFields [(2, d.mode.code), (22, bits d.address.toNat 36 22), (4, bits d.size.toNat 32 4),
    (4, bits d.address.toNat 32 4)])

/-- Two words of a receive-list entry. -/
def receiveEntryBytes (e : ReceiveEntry) : Bytes :=
  word32 e.address.toNat ++ word32 (packFields [(16, bits e.address.toNat 32 16), (16, e.size.toNat)])

/-- All that stands before the receive list; the data section is filled up to whole words. -/
def bodyBytes (m : Message) : Bytes :=
  m.headerBytes ++ m.specialBytes ++ m.sendStatics.flatMap staticBytes
  ++ (m.sendBuffers ++ m.receiveBuffers ++ m.exchangeBuffers).flatMap bufferBytes
  ++ padTo (piecesOf m.data.length 4 * 4) m.data

/-- The image of a message, or the first limit it breaks. -/
def encode (m : Message) : Except ProtocolError Bytes := do
  checkCount .sendStatic m.sendStatics.length
  checkCount .sendBuffer m.sendBuffers.length
  checkCount .receiveBuffer m.receiveBuffers.length
  checkCount .exchangeBuffer m.exchangeBuffers.length
  checkCount .copyHandle m.copyHandles.length
  checkCount .moveHandle m.moveHandles.length
  checkCount .receiveList m.receiveList.length (maxDescriptors - explicitListBase)
  if maxDataWords < piecesOf m.data.length 4 then
    throw (.messageTooLarge m.data.length (maxDataWords * 4))
  let body := m.bodyBytes
  let start ←
    if m.receiveListOffset = 0 then pure body.length else receiveListStart m.receiveListOffset.toNat body.length
  let image := padTo start body ++ m.receiveList.flatMap receiveEntryBytes
  if messageBufferSize < image.length then
    throw (.messageTooLarge image.length messageBufferSize)
  return image

/-! ## Reading -/

/-- Reads a handle value. -/
def handleDecoder : Decoder UInt32 := do return UInt32.ofNat (← Decoder.word)

/-- Reads a static descriptor. -/
def staticDecoder : Decoder StaticDescriptor := do
  let head ← Decoder.word
  let low ← Decoder.word
  return {
    index := UInt8.ofNat (bits head 0 6)
    address := UInt64.ofNat (packFields [(32, low), (4, bits head 12 4), (6, bits head 6 6)])
    size := UInt16.ofNat (bits head 16 16) }

/-- Reads a buffer descriptor; the reserved mode is refused once its words are read. -/
def bufferDecoder : Decoder BufferDescriptor := do
  let sizeLow ← Decoder.word
  let addressLow ← Decoder.word
  let tail ← Decoder.word
  match BufferMode.ofCode? (bits tail 0 2) with
  | some mode => return {
      address := UInt64.ofNat (packFields [(32, addressLow), (4, bits tail 28 4), (22, bits tail 2 22)])
      size := UInt64.ofNat (packFields [(32, sizeLow), (4, bits tail 24 4)])
      mode }
  | none => Decoder.fail (.invalidBufferMode (bits tail 0 2))

/-- Reads a receive-list entry. -/
def receiveEntryDecoder : Decoder ReceiveEntry := do
  let low ← Decoder.word
  let high ← Decoder.word
  return { address := UInt64.ofNat (packFields [(32, low), (16, bits high 0 16)]), size := UInt16.ofNat (bits high 16 16) }

/-- The process id and the two handle lists of the special header. -/
def specialDecoder : Decoder (Option UInt64 × List UInt32 × List UInt32) := do
  let special ← Decoder.word
  let pid ← if bits special 0 1 = 1 then (some ∘ UInt64.ofNat) <$> Decoder.longWord else pure none
  let copyHandles ← Decoder.times handleDecoder (bits special 1 4)
  let moveHandles ← Decoder.times handleDecoder (bits special 5 4)
  return (pid, copyHandles, moveHandles)

/-- How many receive-list entries a mode announces: modes zero and one none, mode two a single one. -/
def receiveListLength : Nat → Nat
  | 0 => 0
  | 1 => 0
  | 2 => 1
  | mode => mode - explicitListBase

/-- Goes to where a receive list with entries was placed; zero leaves it right behind the data section. -/
def seekReceiveList (entries offset : Nat) : Decoder Unit :=
  if 0 < entries ∧ offset ≠ 0 then do
    match receiveListStart offset (← Decoder.position) with
    | .ok start => Decoder.seek start
    | .error e => Decoder.fail e
  else return

/-- Reads a whole message. -/
def decoder : Decoder Message := do
  let first ← Decoder.word
  let second ← Decoder.word
  let (pid, copyHandles, moveHandles) ← if bits second 31 1 = 1 then specialDecoder else pure (none, [], [])
  let sendStatics ← Decoder.times staticDecoder (bits first 16 4)
  let sendBuffers ← Decoder.times bufferDecoder (bits first 20 4)
  let receiveBuffers ← Decoder.times bufferDecoder (bits first 24 4)
  let exchangeBuffers ← Decoder.times bufferDecoder (bits first 28 4)
  let dataOffset ← Decoder.position
  let data ← Decoder.take (bits second 0 10 * 4)
  let entries := receiveListLength (bits second 10 4)
  let listOffset := bits second 20 11
  seekReceiveList entries listOffset
  let receiveList ← Decoder.times receiveEntryDecoder entries
  return {
    messageType := UInt16.ofNat (bits first 0 16)
    pid, copyHandles, moveHandles, sendStatics, sendBuffers, receiveBuffers, exchangeBuffers, receiveList
    receiveListOffset := UInt16.ofNat listOffset
    data, dataOffset }

/-- The message held by an image; what stands behind the message is ignored. -/
def decode (image : Bytes) : Except ProtocolError Message := decoder.run image

end Message

end Microkernel.Wire
