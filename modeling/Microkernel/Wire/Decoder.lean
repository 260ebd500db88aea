import Microkernel.Text.Hex
import Microkernel.Wire.Bytes

/-!
# Reading message images
-/

namespace Microkernel.Wire

/-! ## Why a message image cannot be read or written -/

/-- The descriptor lists whose length a header field limits. -/
inductive DescriptorList
  | sendStatic
  | sendBuffer
  | receiveBuffer
  | exchangeBuffer
  | copyHandle
  | moveHandle
  | receiveList
  deriving DecidableEq, Repr

/-- The list as messages name it. -/
def DescriptorList.name : DescriptorList → String
  | sendStatic => "send static"
  | sendBuffer => "send buffer"
  | receiveBuffer => "receive buffer"
  | exchangeBuffer => "exchange buffer"
  | copyHandle => "copy handle"
  | moveHandle => "move handle"
  | receiveList => "receive list"

/-- The reasons that stop decoding or encoding a message. -/
inductive ProtocolError
  /-- The image of `available` bytes ends before `needed` bytes at `offset`. -/
  | truncated (offset needed available : Nat)
  /-- A command frame does not begin with its magic word. -/
  | invalidMagic (found : Nat)
  /-- A list does not fit its count field. -/
  | tooManyDescriptors (list : DescriptorList) (count : Nat)
  /-- The laid-out message does not fit its limit. -/
  | messageTooLarge (size limit : Nat)
  /-- The data section of `length` bytes has no room for a frame header. -/
  | missingHeader (length : Nat)
  /-- A buffer descriptor carries the reserved mode. -/
  | invalidBufferMode (mode : Nat)
  /-- The receive list would begin inside the data section; both positions count words. -/
  | invalidReceiveListOffset (offset dataEnd : Nat)
  deriving DecidableEq, Repr

/-- The name under which reports list the error. -/
def ProtocolError.name : ProtocolError → String
  | truncated _ _ _ => "Truncated"
  | invalidMagic _ => "InvalidMagic"
  | tooManyDescriptors _ _ => "TooManyDescriptors"
  | messageTooLarge _ _ => "MessageTooLarge"
  | missingHeader _ => "MissingCmifHeader"
  | invalidBufferMode _ => "InvalidBufferMode"
  | invalidReceiveListOffset _ _ => "InvalidRecvListOffset"

/-- The wording of a protocol error. -/
def ProtocolError.message : ProtocolError → String
  | truncated offset needed available =>
    s!"message truncated: needed {needed} bytes at offset {offset}, buffer is {available}"
  | invalidMagic found => "invalid CMIF magic 0x" ++ Text.hexPadded 8 found
  | tooManyDescriptors list count => s!"too many {list.name} descriptors: {count}"
  | messageTooLarge size limit => s!"message of {size} bytes exceeds buffer of {limit} bytes"
  | missingHeader length => s!"data section of {length} bytes cannot hold a CMIF header"
  | invalidBufferMode mode => s!"invalid buffer mode {mode}"
  | invalidReceiveListOffset offset dataEnd =>
    s!"receive list at word {offset} overlaps data ending at word {dataEnd}"

/-!
## Decoders

A decoder walks over a message image from a byte offset and answers with a value and the offset behind it. `Decoder.take` is the
only one that looks at the image, so it alone decides when an image is too short.
-/

/-- A reader of message images: from the image and an offset to a value and the next offset. -/
def Decoder (α : Type) := Bytes → Nat → Except ProtocolError (α × Nat)

namespace Decoder

protected def pure {α : Type} (a : α) : Decoder α := fun _ offset => .ok (a, offset)

protected def bind {α β : Type} (d : Decoder α) (f : α → Decoder β) : Decoder β := fun image offset =>
  match d image offset with
  | .ok (a, next) => f a image next
  | .error e => .error e

instance : Monad Decoder where
  pure := Decoder.pure
  bind := Decoder.bind

/-- Stops with a reason. -/
def fail {α : Type} (e : ProtocolError) : Decoder α := fun _ _ => .error e

/-- The offset reached so far. -/
def position : Decoder Nat := fun _ offset => .ok (offset, offset)

/-- Continues at another offset. -/
def seek (offset : Nat) : Decoder Unit := fun _ _ => .ok ((), offset)

/-- The next `n` bytes. -/
def take (n : Nat) : Decoder Bytes := fun image offset =>
  if offset + n ≤ image.length then .ok ((image.drop offset).take n, offset + n)
  else .error (.truncated offset n image.length)

/-- The next word. -/
def word : Decoder Nat := do return ofLittleEndian (← take 4)

/-- The next two words as one long word, low half first. -/
def longWord : Decoder Nat := do
  let low ← word
  let high ← word
  return packFields [(32, low), (32, high)]

/-- `n` values read one after the other. -/
def times {α : Type} (d : Decoder α) : Nat → Decoder (List α)
  | 0 => pure []
  | n + 1 => do
    let first ← d
    let rest ← times d n
    return first :: rest

/-- Reads from the start of an image. -/
def run {α : Type} (d : Decoder α) (image : Bytes) : Except ProtocolError α := (d image 0).map (·.1)

end Decoder

end Microkernel.Wire
