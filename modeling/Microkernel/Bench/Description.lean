import Microkernel.Bench.Basic
import Microkernel.Description.Service

/-!
# What an operator describes on a bench

Calls, scripts and processes as an operator describes them. Things on the bench are described by their names.
-/

namespace Microkernel.Bench

open Json (named)

/-- A permission in a field. -/
def permission (j : Json) (name : String) (fallback : Nat) : Permission := ⟨.ofNat (j.natOr name fallback)⟩

/-- A handle in a field. -/
def handle (j : Json) (name : String) : Handle := ⟨.ofNat (j.num name)⟩

/-- How an event is reset; manually unless it is said to be automatic. -/
def resetMode (j : Json) : ResetMode := if j.text "mode" = "auto" then .automatic else .manual

/-- The limit of a wait. -/
def waitNanos (j : Json) : Int := j.intOr "nanos" 0

/-! ## Calls -/

/-- A call of a guest thread. -/
def guestCall (j : Json) : Operation GuestCall := do
  let h := handle j "handle"
  let address := j.num "address"
  let size := j.num "size"
  match j.text "call" with
  | "checkpoint" => return .checkpoint
  | "resolve" => return .resolve h
  | "generate" => return .generateHandle (← object (j.text "object"))
  | "bind_session" => return .bindSession (← objectAs (j.text "object") KernelObject.clientSession?)
  | "create_event" => return .createEvent (resetMode j)
  | "signal" => return .signalEvent h
  | "clear" => return .clearEvent h
  | "reset" => return .resetSignal h
  | "wait" => return .wait ((j.words "handles").map Handle.mk) (waitNanos j)
  | "sleep" => return .sleep (waitNanos j)
  | "close" => return .closeHandle h
  | "alloc" => return .allocate size (permission j "perm" 3)
  | "read" => return .readMemory address (j.num "len")
  | "write" => return .writeMemory address (j.hex "hex")
  | "create_transfer" => return .createTransfer address size (permission j "perm" 3)
  | "map_shared" => return .mapShared h address size (permission j "perm" 1)
  | "map_transfer" => return .mapTransfer h address size (permission j "perm" 1)
  | "unmap_shared" => return .unmapShared h address size
  | "unmap_transfer" => return .unmapTransfer h address size
  | "protect" => return .protectTransfer h (permission j "perm" 1)
  | "connect" => return .connect (j.text "name")
  | "send" => return .sendRequest h
  | "write_message" => return .writeMessage (j.hex "hex")
  | "read_message" => return .readMessage
  | "message_address" => return .messageAddress
  | "tick" => return .systemTick
  | "pid" => return .processId h
  | "debug" => return .writeDebug (j.text "text")
  | "exit_process" => return .exitProcess
  | "request" =>
    match Description.image (j.field "request") with
    | .ok image => return .exchange h image
    | .error e => throw (.protocol e)
  | "exit" => return .finish
  | "fail" => return .fail (Description.kernelError (j.text "kind") j)
  | "panic" => return .panic
  | _ => throw .unknown

/-! ## Processes -/

/-- A process to start. -/
def creation (j : Json) : ProcessCreation :=
  { name := j.text "name", version := .ofNat (j.natOr "version" 1)
    programId := .ofNat (j.natOr "program" 0x0100000000001000)
    codeAddress := .ofNat (j.natOr "code_address" codeBase), codePages := .ofNat (j.natOr "code_pages" 1)
    flags := ⟨.ofNat (j.natOr "flags" ProcessFlags.application.bits.toNat)⟩ }

/-- The capability words of a process: those given, or all calls, the guest priorities and the four cores, and those added. -/
def capabilityWords (j : Json) : List UInt32 :=
  if j.lacks "caps" then
    CallMask.all.toDescriptors ++ [Capability.corePriorityWord 24 lowestPriority.toUInt32 0 3] ++ j.words "extra_caps"
  else j.words "caps"

/-! ## Services -/

/-- How a handle travels; it is copied unless it is said to move. -/
def handleMode (text : String) : HandleMode := if text = "move" then .move else .copy

/-- What a script sends: something made for the occasion, or an object on the bench. -/
def objectSource (b : Bench) (name : String) : ObjectSource :=
  match name with
  | "new_event" => .newEvent
  | "new_session" => .newSession
  | name =>
    match ((object name).run b).1 with
    | .ok o => .existing o
    | .error _ => .missing

/-- The service with a name among the built-in ones, or a script. -/
def blueprint (name : String) (display : String) (ignoreMissing : Bool) (registry : Option RecordId) (script : List ScriptCommand) :
    Blueprint :=
  match name, registry with
  | "set:sys", _ => .systemSettings { displayVersion := display }
  | "ldn:m", _ => .wirelessMonitorCreator
  | "monitor", _ => .wirelessMonitor
  | "ns:am", _ => .applicationManager
  | "sm", some registry => .serviceManager registry ignoreMissing
  | _, _ => .scripted script

/-- The display version of the default firmware. -/
def defaultDisplay : String := ({} : FirmwareVersion).displayVersion

mutual

/-- A step of a script, described as its name and what it takes. Scripts within scripts are read to a given depth. -/
def scriptStep (b : Bench) : Nat → Json → ScriptStep
  | 0, _ => .idle
  | depth + 1, j =>
    let index := j.nthNum 1
    let mode := handleMode (j.nthText 1)
    match j.nthText 0 with
    | "read_u8" => .readByte
    | "read_bool" => .readBool
    | "read_u32" => .readWord
    | "read_u64" => .readLongWord
    | "read_bytes" => .readBytes index
    | "write_u8" => .writeByte (.ofNat index)
    | "write_bool" => .writeBool (index ≠ 0)
    | "write_u32" => .writeWord (.ofNat index)
    | "write_u64" => .writeLongWord (.ofNat index)
    | "write_bytes" => .writeBytes (j.nthHex 1)
    | "count" => .count
    | "in_buffer" => .inBuffer index
    | "in_pointer" => .inPointer (.ofNat index)
    | "out_buffer_info" => .outBufferInfo index
    | "out_buffer" => .outBuffer index (j.nthHex 2)
    | "out_pointer" => .outPointer index (j.nthHex 2)
    | "auto_out" => .outEither index (j.nthHex 2)
    | "read_memory" => .readMemory index (j.nthNum 2)
    | "write_memory" => .writeMemory index (j.nthHex 2)
    | "in_handle" => .inHandle mode (j.nthNum 2)
    | "keep_handle" => .keepHandle mode (j.nthNum 2)
    | "in_object" => .inObject mode (j.nthNum 2)
    | "signal_in" => .signalIn mode (j.nthNum 2)
    | "out_object" => .outObject mode (objectSource b (j.nthText 2))
    | "session_dropped" => .sessionDropped
    | "make_object" => .makeObject (blueprint (j.nthText 1) defaultDisplay false none (scriptCommands b depth (j.nth 2)))
    | "who" => .who
    | "server_handles" => .serverHandles
    | "fail" => .fail (Description.serviceError (j.nthText 1) (j.nth 2))
    | "panic" => .panic
    | "try" => .attempt (scriptStep b depth (j.nth 1))
    | _ => .idle
  termination_by depth _ => (depth, 0)

/-- The commands of a script. -/
def scriptCommands (b : Bench) (depth : Nat) (j : Json) : List ScriptCommand :=
  ((j.array?).getD []).map fun c =>
    .mk { id := .ofNat (c.num "id"), name := c.text "name", buffers := (c.items "buffers").map Description.bufferSpec }
      ((c.items "steps").map (scriptStep b depth))
  termination_by (depth, 1)

end

/-- More scripts within scripts than anybody describes. -/
def scriptDepth : Nat := 32

/-- A service, built in or scripted. The service manager works on the registry of the bench. -/
def service (j : Json) : Operation Blueprint := do
  let name := j.text "service"
  let registry ← if name = "sm" then some <$> registryOn false else pure none
  return blueprint name (j.textOr "display" defaultDisplay) (j.flag "ignore_missing") registry
    (scriptCommands (← get) scriptDepth (j.field "commands"))

/-- A service as its kind alone decides it: which registry a service manager works on is left open. -/
def serviceOfKind (kind : String) : Blueprint := blueprint kind defaultDisplay false (some 0) []

end Microkernel.Bench
