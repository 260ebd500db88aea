import Microkernel.Machine.Memory
import Microkernel.Machine.Registries
import Microkernel.Wire.Request

/-!
# Calls in progress

The context of one command while its handler runs. What a handler does to its client is staged: memory is written and handles are
bound only once the handler has succeeded, so that a handler that fails leaves nothing behind. Handles that a client attaches are
duplicated into the server for the length of the call.
-/

namespace Microkernel

open Wire (Bytes StaticDescriptor)

/-- An attached handle, as the server's process names it. -/
structure InHandle where
  handle : Handle
  /-- Whether it stays open after the call. -/
  kept : Bool := false
  deriving DecidableEq, Repr, Inhabited

/-- One command in progress. -/
structure Call where
  kernel : RecordId
  /-- The process of the server. -/
  server : RecordId
  /-- The process of the client. -/
  client : RecordId
  request : Wire.Request
  /-- The argument bytes read so far. -/
  cursor : Nat := 0
  output : Bytes := []
  copyIn : List InHandle := []
  moveIn : List InHandle := []
  /-- The client's handles to close after the call. -/
  movedSources : List Handle := []
  copyOut : List KernelObject := []
  moveOut : List KernelObject := []
  writes : List (Nat × Bytes) := []
  statics : List StaticDescriptor := []
  newSessions : List SessionEntry := []
  deriving Inhabited

/-- How a handler stops early. -/
inductive HandlerFailure
  | error (e : ServiceError)
  | panicked
  deriving DecidableEq, Repr

/-- The body of a command. -/
abbrev Handler := ExceptT HandlerFailure (StateT Call Update)

namespace Call

open Machine

/-! ## Helpers for handlers -/

/-- Stops with an error. -/
def fail {α : Type} (e : ServiceError) : Handler α := throw (.error e)

/-- Stops with a result code. -/
def failWith {α : Type} (code : ResultCode) : Handler α := fail (.result code)

/-- Runs a program over the machine. -/
def update {α : Type} (program : Update α) : Handler α := ExceptT.lift (StateT.lift program)

/-- Runs a program over the machine whose error stops the handler. -/
def attempt {α : Type} (program : Update (Except ServiceError α)) : Handler α := do
  match ← update program with
  | .ok a => return a
  | .error e => fail e

/-- Runs a kernel operation. -/
def perform {α : Type} (program : Action α) : Handler α := attempt do return (← program.run).mapError .kernel

/-! ## Arguments -/

/-- The next `n` argument bytes, at a multiple of `n`. -/
def readAligned (n : Nat) : Handler Bytes := do
  let c ← get
  let start := Wire.alignUp c.cursor n
  if start + n ≤ c.request.payload.length then
    set { c with cursor := start + n }
    return (c.request.payload.drop start).take n
  else failWith .invalidHeaderSize

/-- The next argument as a number of `n` bytes. -/
def readNumber (n : Nat) : Handler Nat := do return Wire.ofLittleEndian (← readAligned n)

/-- The next `n` argument bytes, wherever they begin. -/
def readBytes (n : Nat) : Handler Bytes := do
  let c ← get
  if wordLimit ≤ c.cursor + n then failWith .invalidBufferSize
  else if c.cursor + n ≤ c.request.payload.length then
    set { c with cursor := c.cursor + n }
    return (c.request.payload.drop c.cursor).take n
  else failWith .invalidHeaderSize

/-! ## Output -/

/-- Appends output bytes. -/
def writeBytes (bytes : Bytes) : Handler Unit := modify fun c => { c with output := c.output ++ bytes }

/-- Appends a number of `n` bytes at a multiple of `n`. -/
def writeNumber (n value : Nat) : Handler Unit := do
  let c ← get
  writeBytes (Wire.zeros (Wire.alignUp c.output.length n - c.output.length) ++ Wire.littleEndian n value)

/-! ## Buffers -/

/-- Reads memory of the client. -/
def readMemory (address length : Nat) : Handler Bytes := do perform (Machine.readMemory (← get).client address length)

/-- Stages a write to memory of the client. -/
def writeMemory (address : Nat) (bytes : Bytes) : Handler Unit :=
  modify fun c => { c with writes := c.writes ++ [(address, bytes)] }

/-- The contents of a send buffer. -/
def readInBuffer (index : Nat) : Handler Bytes := do
  match (← get).request.message.sendBuffers[index]? with
  | some b => readMemory b.address.toNat b.size.toNat
  | none => failWith .invalidBufferSize

/-- The contents of the send static with an index. -/
def readInPointer (index : UInt8) : Handler Bytes := do
  match (← get).request.message.sendStatics.find? (·.index = index) with
  | some s => readMemory s.address.toNat s.size.toNat
  | none => failWith .invalidBufferSize

/-- A receive buffer. -/
def outBuffer? (c : Call) (index : Nat) : Option Wire.BufferDescriptor := c.request.message.receiveBuffers[index]?

/-- Stages bytes for a receive buffer that can hold them. -/
def writeOutBuffer (index : Nat) (bytes : Bytes) : Handler Unit := do
  match ((← get).outBuffer? index).filter fun b => bytes.length ≤ b.size.toNat with
  | some b => writeMemory b.address.toNat bytes
  | none => failWith .invalidBufferSize

/-- Stages bytes for a receive-list entry that can hold them; the response tells their number. -/
def writeOutPointer (index : Nat) (bytes : Bytes) : Handler Unit := do
  match ((← get).request.message.receiveList[index]?).filter fun e => bytes.length ≤ e.size.toNat with
  | some e =>
    if widthLimit 8 ≤ index then failWith .invalidBufferSize
    writeMemory e.address.toNat bytes
    modify fun c => { c with
      statics := c.statics ++ [{ index := .ofNat index, address := e.address, size := .ofNat bytes.length }] }
  | none => failWith .invalidBufferSize

/-- Stages bytes for a receive buffer that is not empty, or else for the receive-list entry at the same position. -/
def writeOutEither (index : Nat) (bytes : Bytes) : Handler Unit := do
  match ((← get).outBuffer? index).filter (·.size ≠ 0) with
  | some _ => writeOutBuffer index bytes
  | none => writeOutPointer index bytes

/-! ## Handles -/

/-- The attached handles of a mode. -/
def inHandles (c : Call) : HandleMode → List InHandle
  | .copy => c.copyIn
  | .move => c.moveIn

/-- An attached handle, as the server names it. -/
def inHandle (mode : HandleMode) (index : Nat) : Handler Handle := do
  match ((← get).inHandles mode)[index]? with
  | some h => return h.handle
  | none => fail (.kernel (.invalidHandle 0))

/-- An attached handle, which then stays open in the server. -/
def keepHandle (mode : HandleMode) (index : Nat) : Handler Handle := do
  let handle ← inHandle mode index
  let keep (handles : List InHandle) := handles.modify index fun h => { h with kept := true }
  modify fun c =>
    match mode with
    | .copy => { c with copyIn := keep c.copyIn }
    | .move => { c with moveIn := keep c.moveIn }
  return handle

/-- The object of an attached handle. -/
def inObject (mode : HandleMode) (index : Nat) : Handler KernelObject := do
  let handle ← inHandle mode index
  perform (resolveHandle (← get).server handle)

/-- Sends an object to the client. -/
def sendObject (mode : HandleMode) (object : KernelObject) : Handler Unit :=
  modify fun c =>
    match mode with
    | .copy => { c with copyOut := c.copyOut ++ [object] }
    | .move => { c with moveOut := c.moveOut ++ [object] }

/-- Opens a session to a service instance on the same server and sends its client end to the client. -/
def openSession (service : RecordId) : Handler Unit := do
  let (server, client) ← update (newSession none)
  modify fun c => { c with newSessions := c.newSessions ++ [{ session := server, service }] }
  sendObject .move (.clientSession client)

/-- The caller's pid, if the request carries one. -/
def clientPid? (s : Machine) (c : Call) : Option Nat := c.request.message.pid.map fun _ => (s.process c.client).pid

/-! ## Beginning and end -/

/-- Duplicates an attached handle into the server. -/
def importHandle (c : Call) (handle : Handle) : Action InHandle := do
  let object ← if handle = .currentProcess then pure (.process c.client) else resolveHandle c.client handle
  return { handle := ← generateHandle c.server object }

/-- Notes a copied handle. -/
def attachCopy (c : Call) (_source : Handle) (h : InHandle) : Call := { c with copyIn := c.copyIn ++ [h] }

/-- Notes a moved handle and its source. -/
def attachMove (c : Call) (source : Handle) (h : InHandle) : Call :=
  { c with moveIn := c.moveIn ++ [h], movedSources := c.movedSources ++ [source] }

/-- Duplicates handles of a request, each noted once it is duplicated. -/
def importEach (attach : Call → Handle → InHandle → Call) : List Handle → Call → Update (Except KernelError Unit × Call)
  | [], c => return (.ok (), c)
  | source :: rest, c => do
    match ← (c.importHandle source).run with
    | .ok h => importEach attach rest (attach c source h)
    | .error e => return (.error e, c)

/-- The copied handles of the request. -/
def copySources (c : Call) : List Handle := c.request.message.copyHandles.map Handle.mk

/-- The moved handles of the request. -/
def moveSources (c : Call) : List Handle := c.request.message.moveHandles.map Handle.mk

/-- Duplicates every attached handle; the first that cannot be is the error. -/
def importAll (c : Call) : Update (Except KernelError Unit × Call) := do
  match ← importEach attachCopy c.copySources c with
  | (.ok (), c) => importEach attachMove c.moveSources c
  | failed => return failed

/-- Closes handles of the client. -/
def unbind (client : RecordId) (handles : List Handle) : Update Unit := do
  for handle in handles do releaseHandle client handle

/-- Binds objects in the client. If one cannot be bound, none is. -/
def bindFrom (client : RecordId) (bound : List Handle) : List KernelObject → Update (Except KernelError (List Handle))
  | [] => return .ok bound
  | object :: rest => do
    match ← (generateHandle client object).run with
    | .ok handle => bindFrom client (bound ++ [handle]) rest
    | .error e =>
      unbind client bound
      return .error e

/-- Writes what was staged, in order, up to the first write that fails. -/
def applyWrites (client : RecordId) : List (Nat × Bytes) → Action Unit
  | [] => return
  | (address, bytes) :: rest => do
    Machine.writeMemory client address bytes
    applyWrites client rest

/-- Binds what the handler sends and then writes what it staged. On an error nothing stays bound. -/
def commit (c : Call) : Update (Except KernelError (List Handle × List Handle)) := do
  match ← bindFrom c.client [] c.copyOut with
  | .error e => return .error e
  | .ok copies =>
    match ← bindFrom c.client [] c.moveOut with
    | .error e =>
      unbind c.client copies
      return .error e
    | .ok moves =>
      match ← (applyWrites c.client c.writes).run with
      | .error e =>
        unbind c.client copies
        unbind c.client moves
        return .error e
      | .ok () => return .ok (copies, moves)

/-- Drops what the handler was about to send: client ends of sessions are closed, and the sessions it opened. -/
def discard (objects : List KernelObject) (newSessions : List SessionEntry) : Update Unit := do
  for object in objects do
    if let .clientSession id := object then closeClientSession id
  for entry in newSessions do closeServerSession entry.session

/-- Ends the call: duplicated handles that are not kept are closed in the server, and moved ones in the client. -/
def release (c : Call) : Update Unit := do
  for h in c.copyIn ++ c.moveIn do
    if !h.kept then releaseHandle c.server h.handle
  for handle in c.movedSources do releaseHandle c.client handle

end Call

end Microkernel
