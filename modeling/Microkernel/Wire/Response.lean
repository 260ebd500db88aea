import Microkernel.Wire.Frame

/-!
# Responses

What a server answers: a result, output bytes, handles and the sizes it wrote to receive-list entries. One type serves both
directions: `Response.encode` writes it and `Response.parse` reads it.
-/

namespace Microkernel.Wire

/-- A response. -/
structure Response where
  result : ResultCode
  payload : Bytes := []
  copyHandles : List UInt32 := []
  moveHandles : List UInt32 := []
  sendStatics : List StaticDescriptor := []
  deriving DecidableEq, Repr, Inhabited

namespace Response

/-- The message that carries the response. -/
def message (r : Response) : Message :=
  Message.withFrame { copyHandles := r.copyHandles, moveHandles := r.moveHandles, sendStatics := r.sendStatics }
    { magic := .ofNat responseMagic, value := r.result.raw } r.payload

/-- The image of the response. -/
def encode (r : Response) : Except ProtocolError Bytes := r.message.encode

/-- The image of a response that carries only a result. -/
def bare (result : ResultCode) : Bytes :=
  match encode { result } with
  | .ok image => image
  | .error _ => []

/-- Reads a message image as a response. -/
def parse (image : Bytes) : Except ProtocolError Response := do
  let message ← Message.decode image
  let (header, payload) ← message.readFrame responseMagic
  return {
    result := ⟨header.value⟩
    payload
    copyHandles := message.copyHandles
    moveHandles := message.moveHandles
    sendStatics := message.sendStatics }

/-- The word at `offset` of the payload, if it lies inside. -/
def word? (r : Response) (offset : Nat) : Option Nat :=
  if offset + 4 ≤ r.payload.length then some (ofLittleEndian ((r.payload.drop offset).take 4)) else none

/-- The long word at `offset` of the payload, if it lies inside. -/
def longWord? (r : Response) (offset : Nat) : Option Nat := do
  let low ← r.word? offset
  let high ← r.word? (offset + 4)
  return packFields [(32, low), (32, high)]

end Response

end Microkernel.Wire
