import Microkernel.Wire.Frame

/-!
# Requests

A request as a client describes it (`RequestDescription`) and as a server reads it (`Request`).
-/

namespace Microkernel.Wire

/-- One argument of a command. -/
inductive Argument
  | word (value : UInt32)
  | longWord (value : UInt64)
  | raw (bytes : Bytes)
  deriving DecidableEq, Repr

def Argument.bytes : Argument → Bytes
  | word value => word32 value.toNat
  | longWord value => word64 value.toNat
  | raw bytes => bytes

/-- A buffer of normal memory. -/
def BufferDescriptor.mapped (address size : UInt64) : BufferDescriptor := { address, size }

/-- What a client puts into a request, in the order it is laid out. -/
structure RequestDescription where
  commandType : CommandType := .request
  commandId : UInt32 := 0
  /-- Whether the kernel is asked to attach the sender's process id. -/
  sendPid : Bool := false
  copyHandles : List UInt32 := []
  moveHandles : List UInt32 := []
  sendStatics : List StaticDescriptor := []
  sendBuffers : List BufferDescriptor := []
  receiveBuffers : List BufferDescriptor := []
  exchangeBuffers : List BufferDescriptor := []
  receiveList : List ReceiveEntry := []
  arguments : List Argument := []
  deriving Repr, Inhabited

namespace RequestDescription

/-- The argument bytes, one argument right behind the other. -/
def payload (r : RequestDescription) : Bytes := r.arguments.flatMap Argument.bytes

/-- The message that carries the request. -/
def message (r : RequestDescription) : Message :=
  Message.withFrame {
    messageType := r.commandType.code
    pid := if r.sendPid then some 0 else none
    copyHandles := r.copyHandles
    moveHandles := r.moveHandles
    sendStatics := r.sendStatics
    sendBuffers := r.sendBuffers
    receiveBuffers := r.receiveBuffers
    exchangeBuffers := r.exchangeBuffers
    receiveList := r.receiveList
  } { magic := .ofNat requestMagic, value := r.commandId } r.payload

/-- The image of the request. -/
def encode (r : RequestDescription) : Except ProtocolError Bytes := r.message.encode

end RequestDescription

/-- The image of a request to close the session; it carries no frame. -/
def closeRequest : Bytes :=
  match Message.encode { messageType := CommandType.close.code } with
  | .ok image => image
  | .error _ => []

/-- A request as it was read. -/
structure Request where
  commandType : CommandType
  header : FrameHeader
  /-- The argument bytes, reserved zeros included. -/
  payload : Bytes
  message : Message
  deriving DecidableEq, Repr, Inhabited

namespace Request

def commandId (r : Request) : UInt32 := r.header.value

/-- Reads the frame of a decoded message as a request. -/
def ofMessage (commandType : CommandType) (message : Message) : Except ProtocolError Request := do
  let (header, payload) ← message.readFrame requestMagic
  return { commandType, header, payload, message }

/-- Reads a message image as a request; an unknown message type counts as invalid. -/
def parse (image : Bytes) : Except ProtocolError Request := do
  let message ← Message.decode image
  ofMessage ((CommandType.ofCode? message.messageType).getD .invalid) message

end Request

end Microkernel.Wire
