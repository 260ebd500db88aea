import Microkernel.Error
import Microkernel.Memory.AddressSpace
import Microkernel.Object.Basic
import Microkernel.SupervisorCall
import Microkernel.Sync

/-!
# Guest calls

What a guest thread can ask of its kernel, and how its entry can end. A thread takes one call at a time.
-/

namespace Microkernel

open Wire (Bytes)

/-- A call of a guest thread. -/
inductive GuestCall
  /-- Passes a point at which the thread can be held or ended. -/
  | checkpoint
  | resolve (handle : Handle)
  | generateHandle (object : KernelObject)
  /-- Binds a client session, or closes it if no handle can be made. -/
  | bindSession (session : RecordId)
  | createEvent (mode : ResetMode)
  | signalEvent (handle : Handle)
  | clearEvent (handle : Handle)
  | resetSignal (handle : Handle)
  | wait (handles : List Handle) (nanos : Int)
  | sleep (nanos : Int)
  | closeHandle (handle : Handle)
  | allocate (size : Nat) (permission : Permission)
  | readMemory (address length : Nat)
  | writeMemory (address : Nat) (bytes : Bytes)
  | createTransfer (address size : Nat) (permission : Permission)
  | mapShared (handle : Handle) (address size : Nat) (permission : Permission)
  | unmapShared (handle : Handle) (address size : Nat)
  | mapTransfer (handle : Handle) (address size : Nat) (permission : Permission)
  | unmapTransfer (handle : Handle) (address size : Nat)
  | protectTransfer (handle : Handle) (permission : Permission)
  | connect (name : String)
  /-- Sends the message in the thread's message buffer and blocks until it is answered. -/
  | sendRequest (handle : Handle)
  | writeMessage (bytes : Bytes)
  | readMessage
  | messageAddress
  | systemTick
  | processId (handle : Handle)
  | writeDebug (text : String)
  | exitProcess
  /-- Writes a message, sends it, and reads the answer. -/
  | exchange (handle : Handle) (message : Bytes)
  /-- The entry returns. -/
  | finish
  /-- The entry returns with an error. -/
  | fail (e : KernelError)
  /-- The entry is abandoned. -/
  | panic
  deriving Repr, Inhabited

/-- What a call that succeeds answers with. -/
inductive CallValue
  | unit
  | number (n : Nat)
  | bytes (bytes : Bytes)
  | object (object : KernelObject)
  /-- The message buffer after an exchange. -/
  | message (bytes : Bytes)
  deriving DecidableEq, Repr, Inhabited

namespace GuestCall

/-- The supervisor call behind a guest call; the rest are not checked against the call mask. -/
def callId? : GuestCall → Option Microkernel.CallId
  | createEvent _ => some .createEvent
  | signalEvent _ => some .signalEvent
  | clearEvent _ => some .clearEvent
  | resetSignal _ => some .resetSignal
  | wait _ _ => some .waitSynchronization
  | sleep _ => some .sleepThread
  | closeHandle _ => some .closeHandle
  | allocate _ _ => some .setHeapSize
  | createTransfer _ _ _ => some .createTransferMemory
  | mapShared _ _ _ _ => some .mapSharedMemory
  | unmapShared _ _ _ => some .unmapSharedMemory
  | mapTransfer _ _ _ _ => some .mapTransferMemory
  | unmapTransfer _ _ _ => some .unmapTransferMemory
  | protectTransfer _ _ => some .setMemoryPermission
  | connect _ => some .connectToNamedPort
  | sendRequest _ => some .sendSyncRequest
  | exchange _ _ => some .sendSyncRequest
  | systemTick => some .getSystemTick
  | processId _ => some .getProcessId
  | writeDebug _ => some .outputDebugString
  | exitProcess => some .exitProcess
  | _ => none

end GuestCall

end Microkernel
