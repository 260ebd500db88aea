import Microkernel.Machine.Collecting
import Microkernel.Proofs.Machine.Starting

/-!
# What hosts ask of a kernel

A run is a list of steps on a new kernel. In a step the host makes one call, then chooses the objects that it holds on to, and the
machine comes to rest. The guests of a run take no calls: what happens to their processes is what the host asks for.
-/

namespace Microkernel

variable {α : Type}

/-- Runs a program and tells whether it succeeded. -/
def Action.succeeds (program : Action α) : Update Bool := do return (← program.run).isOk

namespace Machine

/-- Whether an object exists. -/
def has (s : Machine) : KernelObject → Bool
  | .event id => s.events.contains id
  | .sharedMemory id => s.sharedMemories.contains id
  | .transferMemory id => s.transferMemories.contains id
  | .process id => s.processes.contains id
  | .thread id => s.threads.contains id
  | .serverPort id => s.serverPorts.contains id
  | .clientPort id => s.clientPorts.contains id
  | .serverSession id => s.serverSessions.contains id
  | .clientSession id => s.clientSessions.contains id

/-- Another thread for a process. -/
def addThread (kernel process : RecordId) (priority : Nat) : Action Unit := do
  let thread ← createThread process (← takeThreadId kernel) priority .guest .guest
  startThread thread

/-- A call of a host. -/
inductive HostCall
  /-- Starts a process whose first thread runs guest code. -/
  | start (call : StartCall)
  | addThread (process : RecordId) (priority : Nat)
  | newEvent (mode : ResetMode)
  | generateHandle (process : RecordId) (object : KernelObject)
  | closeHandle (process : RecordId) (handle : Handle)
  | allocateHeap (process : RecordId) (size : Nat) (permission : Permission)
  | newSharedMemory (region : RegionKind) (size : Nat) (ownerPermission userPermission : Permission)
  | mapShared (memory process : RecordId) (address size : Nat) (asked : Permission)
  | unmapShared (memory process : RecordId) (address size : Nat)
  | lendHeap (process : RecordId) (address size : Nat) (permission : Permission)
  | mapTransfer (memory process : RecordId) (address size : Nat) (asked : Permission)
  | unmapTransfer (memory process : RecordId) (address size : Nat)
  | protectTransfer (memory : RecordId) (permission : Permission)
  | terminate (process : RecordId)
  | reap

namespace HostCall

/-- The objects that a call names. -/
def objects : HostCall → List KernelObject
  | addThread process _ => [.process process]
  | generateHandle process object => [.process process, object]
  | closeHandle process _ => [.process process]
  | allocateHeap process _ _ => [.process process]
  | mapShared memory process _ _ _ => [.sharedMemory memory, .process process]
  | unmapShared memory process _ _ => [.sharedMemory memory, .process process]
  | lendHeap process _ _ _ => [.process process]
  | mapTransfer memory process _ _ _ => [.transferMemory memory, .process process]
  | unmapTransfer memory process _ _ => [.transferMemory memory, .process process]
  | protectTransfer memory _ => [.transferMemory memory]
  | terminate process => [.process process]
  | start _ | newEvent _ | newSharedMemory _ _ _ _ | reap => []

/-- Carries a call out; answers whether it succeeded. -/
def run (kernel : RecordId) : HostCall → Update Bool
  | start call => ({ call with body := .guest }.start kernel).succeeds
  | addThread process priority => (Machine.addThread kernel process priority).succeeds
  | newEvent mode => do
    let _ ← Machine.newEvent mode
    return true
  | generateHandle process object => (Machine.generateHandle process object).succeeds
  | closeHandle process handle => (Machine.closeHandle process handle).succeeds
  | allocateHeap process size permission => (Machine.allocateHeap process size permission).succeeds
  | newSharedMemory region size ownerPermission userPermission =>
    (Machine.newSharedMemory kernel region size ownerPermission userPermission).succeeds
  | mapShared memory process address size asked => (Machine.mapShared memory process address size asked).succeeds
  | unmapShared memory process address size => (Machine.unmapShared memory process address size).succeeds
  | lendHeap process address size permission => (Machine.lendHeap process address size permission).succeeds
  | mapTransfer memory process address size asked => (Machine.mapTransfer memory process address size asked).succeeds
  | unmapTransfer memory process address size => (Machine.unmapTransfer memory process address size).succeeds
  | protectTransfer memory permission => (Machine.protectTransfer memory permission).succeeds
  | terminate process => do
    terminateProcess process none
    return true
  | reap => do
    let _ ← reapTerminated kernel
    return true

/-- Makes a call if everything that it names exists. -/
def perform (kernel : RecordId) (call : HostCall) : Update Bool := do
  if call.objects.all (← get).has then call.run kernel else return false

end HostCall

/-- A step of a run: a call, and what the host holds on to once it is made. -/
structure HostStep where
  call : HostCall
  holds : List KernelObject := []

namespace HostStep

/-- The host lets go of all that it does not hold on to, and the machine comes to rest. -/
def rest (x : HostStep) : Update Unit := do
  modify fun s => { s with held := (x.holds.filter s.has).map KernelObject.id }
  quiesce

/-- The machine after the call of a step. -/
def called (x : HostStep) (kernel : RecordId) (s : Machine) : Machine := (x.call.perform kernel s).2

/-- The machine after a step. -/
def after (x : HostStep) (kernel : RecordId) (s : Machine) : Machine := (x.rest (x.called kernel s)).2

end HostStep

/-- The machine after a run. -/
def afterSteps (x : Setup) (steps : List HostStep) : Machine := steps.foldl (fun s step => step.after x.kernel s) x.machine

end Machine

end Microkernel
