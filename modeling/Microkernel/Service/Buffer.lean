import Microkernel.Service.Error
import Microkernel.Wire.Message

/-!
# Declared buffers

A command declares the buffers it needs. A request whose buffers are missing or too small is refused before the command runs.
-/

namespace Microkernel

open Wire (Message)

/-- Where a declared buffer is found in a message. -/
inductive BufferKind
  /-- A send buffer. -/
  | input
  /-- A receive buffer. -/
  | output
  /-- An exchange buffer. -/
  | exchange
  /-- The send static with a given index. -/
  | inputPointer
  /-- An entry of the receive list. -/
  | outputPointer
  /-- A receive buffer that is not empty, or else the receive-list entry at the same position. -/
  | outputEither
  deriving DecidableEq, Repr, Inhabited

/-- The kind as reports name it. -/
def BufferKind.name : BufferKind → String
  | input => "In"
  | output => "Out"
  | exchange => "InOut"
  | inputPointer => "InPointer"
  | outputPointer => "OutPointer"
  | outputEither => "AutoOut"

/-- A declared buffer and the least size its command accepts. -/
structure BufferSpec where
  kind : BufferKind
  index : Nat
  minSize : Nat
  deriving DecidableEq, Repr, Inhabited

namespace BufferSpec

/-- The size of the buffer that a message brings for the declaration. -/
def actualSize (s : BufferSpec) (m : Message) : Option Nat :=
  match s.kind with
  | .input => (m.sendBuffers[s.index]?).map (·.size.toNat)
  | .output => (m.receiveBuffers[s.index]?).map (·.size.toNat)
  | .exchange => (m.exchangeBuffers[s.index]?).map (·.size.toNat)
  | .inputPointer => (m.sendStatics.find? (·.index.toNat = s.index)).map (·.size.toNat)
  | .outputPointer => (m.receiveList[s.index]?).map (·.size.toNat)
  | .outputEither =>
    match (m.receiveBuffers[s.index]?).filter (·.size ≠ 0) with
    | some b => some b.size.toNat
    | none => (m.receiveList[s.index]?).map (·.size.toNat)

/-- Whether a message brings a buffer that is large enough. -/
def isMet (s : BufferSpec) (m : Message) : Bool :=
  match s.actualSize m with
  | some size => s.minSize ≤ size
  | none => false

end BufferSpec

/-- Checks every declared buffer of a command against a request. -/
def validateBuffers (specs : List BufferSpec) (m : Message) : Except ServiceError Unit :=
  if specs.all (·.isMet m) then .ok () else .error (.result .invalidBufferSize)

/-- The part of a command that its caller sees. -/
structure CommandInfo where
  id : UInt32
  name : String
  buffers : List BufferSpec := []
  deriving DecidableEq, Repr, Inhabited

end Microkernel
