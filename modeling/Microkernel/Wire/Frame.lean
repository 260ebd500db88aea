import Microkernel.ResultCode
import Microkernel.Wire.Message

/-!
# Command frames

A remote call is framed inside a message's data section. The frame begins at the first 16-byte aligned offset of the message
buffer with a header of four words: a magic word, a version, the command id of a request or the result of a response, and a token.
-/

namespace Microkernel.Wire

/-- The word `SFCI`, with which a request's frame begins. -/
def requestMagic : Nat := 0x49434653

/-- The word `SFCO`, with which a response's frame begins. -/
def responseMagic : Nat := 0x4F434653

/-- The size of a frame header. -/
def frameHeaderSize : Nat := 16

/-- The alignment of a frame inside the message buffer. -/
def frameAlignment : Nat := 16

/-- What a message asks of the session it is sent over. -/
inductive CommandType
  | invalid
  | legacyRequest
  | close
  | legacyControl
  | request
  | control
  | requestWithContext
  | controlWithContext
  deriving DecidableEq, Repr, Inhabited

namespace CommandType

/-- The message type of a command. -/
def code : CommandType → UInt16
  | invalid => 0
  | legacyRequest => 1
  | close => 2
  | legacyControl => 3
  | request => 4
  | control => 5
  | requestWithContext => 6
  | controlWithContext => 7

/-- The command with a given message type. -/
def ofCode? (value : UInt16) : Option CommandType :=
  match value.toNat with
  | 0 => some invalid
  | 1 => some legacyRequest
  | 2 => some close
  | 3 => some legacyControl
  | 4 => some request
  | 5 => some control
  | 6 => some requestWithContext
  | 7 => some controlWithContext
  | _ => none

def name : CommandType → String
  | invalid => "Invalid"
  | legacyRequest => "LegacyRequest"
  | close => "Close"
  | legacyControl => "LegacyControl"
  | request => "Request"
  | control => "Control"
  | requestWithContext => "RequestWithContext"
  | controlWithContext => "ControlWithContext"

/-- A call to the service behind the session. -/
def isRequest (c : CommandType) : Bool := c = request || c = requestWithContext

/-- A call to the session itself. -/
def isControl (c : CommandType) : Bool := c = control || c = controlWithContext

end CommandType

/-! ## The commands of a control request -/

def convertToDomain : UInt32 := 0
def copyFromDomain : UInt32 := 1
def cloneObject : UInt32 := 2
def queryPointerBufferSize : UInt32 := 3
def cloneObjectEx : UInt32 := 4

/-- The header of a frame; `value` is the command id of a request and the result of a response. -/
structure FrameHeader where
  magic : UInt32
  version : UInt32 := 0
  value : UInt32
  token : UInt32 := 0
  deriving DecidableEq, Repr, Inhabited

namespace FrameHeader

def bytes (h : FrameHeader) : Bytes :=
  word32 h.magic.toNat ++ word32 h.version.toNat ++ word32 h.value.toNat ++ word32 h.token.toNat

/-- Reads a header that must begin with `magic`. -/
def decoder (magic : Nat) : Decoder FrameHeader := do
  let found ← Decoder.word
  if found ≠ magic then Decoder.fail (.invalidMagic found)
  let version ← Decoder.word
  let value ← Decoder.word
  let token ← Decoder.word
  return { magic := .ofNat found, version := .ofNat version, value := .ofNat value, token := .ofNat token }

end FrameHeader

/-- The bytes between an offset and the frame that follows it. -/
def framePadding (offset : Nat) : Nat := alignUp offset frameAlignment - offset

/-- The part of a message's data section that begins with its frame. -/
def Message.frame (m : Message) : Except ProtocolError Bytes :=
  if m.data.length < framePadding m.dataOffset + frameHeaderSize then .error (.missingHeader m.data.length)
  else .ok (m.data.drop (framePadding m.dataOffset))

/-- Reads the frame of a message: its header and the payload behind it. -/
def Message.readFrame (m : Message) (magic : Nat) : Except ProtocolError (FrameHeader × Bytes) := do
  let frame ← m.frame
  let header ← (FrameHeader.decoder magic).run frame
  return (header, frame.drop frameHeaderSize)

/-- The size of the data section that is reserved for a payload, whatever the padding before the frame. -/
def reservedSize (payload : Bytes) : Nat := alignUp (frameAlignment + frameHeaderSize + payload.length) 4

/-- The data section that holds a frame: padding, header, payload, and zeros up to the reserved size. -/
def frameData (offset : Nat) (header : FrameHeader) (payload : Bytes) : Bytes :=
  padTo (reservedSize payload) (zeros (framePadding offset) ++ header.bytes ++ payload)

/-- The message with a frame placed in its data section. -/
def Message.withFrame (m : Message) (header : FrameHeader) (payload : Bytes) : Message :=
  { m with dataOffset := m.computeDataOffset, data := frameData m.computeDataOffset header payload }

end Microkernel.Wire
