/-!
# Supervisor call numbers

Each call has a number, which is also its bit in a process's call mask.
-/

namespace Microkernel

/-- The calls that have a name. -/
inductive CallId
  | setHeapSize
  | setMemoryPermission
  | exitProcess
  | createThread
  | startThread
  | exitThread
  | sleepThread
  | signalEvent
  | clearEvent
  | mapSharedMemory
  | unmapSharedMemory
  | createTransferMemory
  | closeHandle
  | resetSignal
  | waitSynchronization
  | getSystemTick
  | connectToNamedPort
  | sendSyncRequest
  | getProcessId
  | outputDebugString
  | createEvent
  | mapTransferMemory
  | unmapTransferMemory
  deriving DecidableEq, Repr, Inhabited

namespace CallId

/-- The number of a call. -/
def number : CallId → Nat
  | setHeapSize => 0x01
  | setMemoryPermission => 0x02
  | exitProcess => 0x07
  | createThread => 0x08
  | startThread => 0x09
  | exitThread => 0x0A
  | sleepThread => 0x0B
  | signalEvent => 0x11
  | clearEvent => 0x12
  | mapSharedMemory => 0x13
  | unmapSharedMemory => 0x14
  | createTransferMemory => 0x15
  | closeHandle => 0x16
  | resetSignal => 0x17
  | waitSynchronization => 0x18
  | getSystemTick => 0x1E
  | connectToNamedPort => 0x1F
  | sendSyncRequest => 0x21
  | getProcessId => 0x24
  | outputDebugString => 0x27
  | createEvent => 0x45
  | mapTransferMemory => 0x51
  | unmapTransferMemory => 0x52

/-- The name of a call. -/
def name : CallId → String
  | setHeapSize => "SetHeapSize"
  | setMemoryPermission => "SetMemoryPermission"
  | exitProcess => "ExitProcess"
  | createThread => "CreateThread"
  | startThread => "StartThread"
  | exitThread => "ExitThread"
  | sleepThread => "SleepThread"
  | signalEvent => "SignalEvent"
  | clearEvent => "ClearEvent"
  | mapSharedMemory => "MapSharedMemory"
  | unmapSharedMemory => "UnmapSharedMemory"
  | createTransferMemory => "CreateTransferMemory"
  | closeHandle => "CloseHandle"
  | resetSignal => "ResetSignal"
  | waitSynchronization => "WaitSynchronization"
  | getSystemTick => "GetSystemTick"
  | connectToNamedPort => "ConnectToNamedPort"
  | sendSyncRequest => "SendSyncRequest"
  | getProcessId => "GetProcessId"
  | outputDebugString => "OutputDebugString"
  | createEvent => "CreateEvent"
  | mapTransferMemory => "MapTransferMemory"
  | unmapTransferMemory => "UnmapTransferMemory"

/-- All named calls. -/
def all : List CallId :=
  [setHeapSize, setMemoryPermission, exitProcess, createThread, startThread, exitThread, sleepThread, signalEvent, clearEvent,
    mapSharedMemory, unmapSharedMemory, createTransferMemory, closeHandle, resetSignal, waitSynchronization, getSystemTick,
    connectToNamedPort, sendSyncRequest, getProcessId, outputDebugString, createEvent, mapTransferMemory, unmapTransferMemory]

/-- The call with a given number, if it has a name. -/
def ofNumber? (number : Nat) : Option CallId := all.find? (·.number = number)

/-- The name of the call with a given number. -/
def nameOf (number : Nat) : String := ((ofNumber? number).map name).getD "Unknown"

end CallId

end Microkernel
