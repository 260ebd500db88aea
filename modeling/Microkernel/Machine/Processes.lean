import Microkernel.Kernel.Stats
import Microkernel.Machine.Memory
import Microkernel.Machine.Termination

/-!
# The process set and the named ports of a kernel

Starting processes, pausing and resuming them, named ports, statistics, and the shutdown of a kernel.
-/

namespace Microkernel.Machine

/-! ## Creation -/

/-- Makes a kernel over a host and tells the journal. -/
def newKernel (config : KernelConfig) (host : Host) : Action RecordId := do
  let kernel ← Kernel.new config host
  let size := Text.hex config.memoryArrange.totalSize
  log .info s!"Kernel starting: {size} bytes DRAM, {config.cpuCoreCount} cores"
  let id ← freshId
  setKernel id kernel
  return id

/-- The next thread id of a kernel. -/
def takeThreadId (kernel : RecordId) : Update Nat := do
  let k := (← get).kernel kernel
  setKernel kernel { k with nextThreadId := k.nextThreadId + 1 }
  return k.nextThreadId

/-- A process that does not run yet. -/
def createProcess (kernel : RecordId) (name : String) (programId : Nat) (flags : ProcessFlags) (capabilities : Capabilities) :
    Update RecordId := do
  let (pid, k) := ((← get).kernel kernel).takePid flags.isApplication
  setKernel kernel { k with nextCreationOrder := k.nextCreationOrder + 1 }
  let capacity := (capabilities.handleTableSize.filter (0 < ·)).getD k.config.defaultHandleTableSize
  let id ← freshId
  setProcess id {
    kernel, pid, name, programId
    isApplication := flags.isApplication
    creationOrder := k.nextCreationOrder
    capabilities
    region := flags.region
    handles := .new capacity }
  return id

/-- Undoes the creation of a process that was never started; its memory goes back. -/
def discardProcess (id : RecordId) : Update Unit := do
  for mapping in ((← get).process id).space.mappings do
    for allocation in mapping.backing do freeAllocation allocation
  modify fun s => { s with processes := s.processes.erase id }

/-- Adds a thread to a process. A guest thread needs a priority that the process was granted. -/
def createThread (process : RecordId) (threadId priority : Nat) (type : ThreadType) (body : ThreadBody) : Action RecordId := do
  let p := (← get).process process
  if p.state.isTerminating then throw .invalidState
  if type = .guest && !p.capabilities.allowsPriority priority then throw (.invalidPriority priority)
  let messageAddress ← allocateThreadLocal process
  let id ← freshId
  setThread id { threadId, process, priority, type, messageAddress, body }
  let p := (← get).process process
  setProcess process { p with threads := p.threads ++ [id] }
  return id

/-- Starts a thread; it runs when the machine next settles. -/
def startThread (id : RecordId) : Update Unit := do
  moveThread id .start
  setActivity id .starting

/-- Drops the terminated processes from the process set; answers with their number. -/
def reapTerminated (kernel : RecordId) : Update Nat := do
  let s ← get
  let k := s.kernel kernel
  let live := k.processes.filter fun _ id => (s.process id).state ≠ .terminated
  setKernel kernel { k with processes := live }
  return k.processes.size - live.size

/-- Creates a process with its first thread and starts it. -/
def startProcess (kernel : RecordId) (creation : ProcessCreation) (words : List UInt32) (priority : Nat) (body : ThreadBody) :
    Action RecordId := do
  let k := (← get).kernel kernel
  if k.shuttingDown then throw .invalidState
  let capabilities ← match Capabilities.parse words k.config.cpuCoreCount.toNat with
    | .ok capabilities => pure capabilities
    | .error e => throw (.capability e)
  if !capabilities.allowsPriority priority then
    log .warn s!"{creation.name}: priority {priority} not granted"
    throw (.invalidPriority priority)
  let id ← createProcess kernel creation.name creation.programId.toNat creation.flags capabilities
  let thread ←
    try
      mapCode id creation.codeAddress.toNat creation.codePages.toNat
      createThread id (← takeThreadId kernel) priority .guest body
    catch e =>
      discardProcess id
      throw e
  let _ ← moveProcess id .start
  let _ ← reapTerminated kernel
  let k := (← get).kernel kernel
  let p := (← get).process id
  if p.isApplication && k.paused then setPaused id true
  setKernel kernel { k with processes := k.processes.insert p.pid id }
  let program := "0x" ++ Text.hexPadded 16 creation.programId.toNat
  log .info s!"Created process {creation.name} (pid {p.pidText}, program {program}, version {creation.version})"
  let _ ← audit kernel (.processCreated p.pid creation.name creation.flags.isApplication)
  startThread thread
  return id

/-! ## Activity -/

/-- The processes of a kernel, in pid order. -/
def processesOf (s : Machine) (kernel : RecordId) : List RecordId := (s.kernel kernel).processes.values

/-- The applications of a kernel, in pid order. -/
def applicationsOf (s : Machine) (kernel : RecordId) : List RecordId :=
  (s.processesOf kernel).filter fun id => (s.process id).isApplication

/-- Freezes the applications and the clock of a kernel; service hosts go on. -/
def pause (kernel : RecordId) : Update Unit := do
  let k := (← get).kernel kernel
  if !k.paused then
    setKernel kernel { k with paused := true, clock := k.clock.suspend k.host.now }
    for id in (← get).applicationsOf kernel do setPaused id true
    log .info "Emulation paused"
    let _ ← audit kernel .paused

/-- Undoes `pause`. -/
def resume (kernel : RecordId) : Update Unit := do
  let k := (← get).kernel kernel
  if k.paused then
    setKernel kernel { k with paused := false, clock := k.clock.resume k.host.now }
    for id in (← get).applicationsOf kernel do setPaused id false
    log .info "Emulation resumed"
    let _ ← audit kernel .resumed

/-! ## Named ports -/

/-- Makes a port under a free name; answers with its server end. -/
def registerNamedPort (kernel : RecordId) (name : String) (maxSessions : Nat) : Action RecordId := do
  if ((← get).kernel kernel).namedPorts.contains name then throw .invalidState
  let (server, client) ← newPort name maxSessions
  let k := (← get).kernel kernel
  setKernel kernel { k with namedPorts := k.namedPorts.insert name client }
  let _ ← audit kernel (.namedPortRegistered name)
  return server

/-- Frees a name. -/
def unregisterNamedPort (kernel : RecordId) (name : String) : Action Unit := do
  let k := (← get).kernel kernel
  if !k.namedPorts.contains name then throw .notFound
  setKernel kernel { k with namedPorts := k.namedPorts.erase name }

/-- Opens a session to a named port; answers with its client end. -/
def connectNamedPort (kernel : RecordId) (name : String) : Action RecordId := do
  match ((← get).kernel kernel).namedPorts[name]? with
  | some port => connectPort port
  | none => throw .notFound

/-! ## Statistics -/

/-- What a kernel holds. -/
def statsOf (s : Machine) (kernel : RecordId) : KernelStats :=
  let k := s.kernel kernel
  let processes := (s.processesOf kernel).map s.process
  { processes := processes.length
    applicationProcesses := (processes.filter (·.isApplication)).length
    threads := total (·.threads.length) processes
    handles := total (·.handles.count) processes
    namedPorts := k.namedPorts.size
    freePages := total Region.freePages k.regions
    ticks := k.ticks
    paused := k.paused }

/-! ## Shutdown -/

/-- Terminates the processes of a kernel: the applications, newest first, then `hook`, then the rest, newest first. Answers with what
the hook answers. -/
def terminateProcesses {α : Type} (kernel : RecordId) (hook : Update α) : Update α := do
  let s ← get
  let newestFirst := (s.processesOf kernel).mergeSort fun a b => (s.process b).creationOrder ≤ (s.process a).creationOrder
  for id in newestFirst.filter fun id => (s.process id).isApplication do terminateProcess id none
  let seen ← hook
  for id in newestFirst.filter fun id => !(s.process id).isApplication do terminateProcess id none
  setKernel kernel { (← get).kernel kernel with processes := {} }
  return seen

/-- Shuts a kernel down. The work is done by a thread of a process made for it, so it fails if that thread cannot be made; no
process can be started afterwards in either case. -/
def terminateAll {α : Type} (kernel : RecordId) (hook : Update α) : Action α := do
  resume kernel
  setKernel kernel { (← get).kernel kernel with shuttingDown := true }
  let host ← createProcess kernel "KernelTermination" 0 .service {}
  let _ ← moveProcess host .start
  let thread ← createThread host (← takeThreadId kernel) 0 .kernel .guest
  startThread thread
  moveThread thread .run
  let seen ← (terminateProcesses kernel hook : Update α)
  exitThread thread .returned
  terminateProcess host none
  log .info "All processes terminated"
  return seen

end Microkernel.Machine
