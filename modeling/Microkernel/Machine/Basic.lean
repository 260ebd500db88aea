import Microkernel.Journal
import Microkernel.Kernel.Basic
import Microkernel.Object.Memory
import Microkernel.Object.Session
import Microkernel.Process.Basic
import Microkernel.Process.Thread
import Microkernel.Service.Instance
import Microkernel.Service.Registry
import Microkernel.Service.Server

/-!
# Machines

Everything that exists: kernels, processes, threads, objects, servers and services, each kind in a table of its own under numbers
that are never given twice. Operations are programs over the whole (`Action`); one that fails keeps what it has done so far.
-/

namespace Microkernel

open Wire (Bytes)

/-- What a scripted handler saw in one step. -/
inductive TraceValue
  | nothing
  | number (n : Nat)
  | bool (b : Bool)
  | bytes (bytes : Bytes)
  | object (object : KernelObject)
  /-- A receive buffer. -/
  | buffer (descriptor : Wire.BufferDescriptor)
  /-- The step had no object to send. -/
  | noObject
  /-- The step is not known. -/
  | noStep
  /-- Who called. -/
  | caller (client : String) (clientPid : Option Nat) (server : String) (command : Nat) (paused : Bool)
  | failure (e : ServiceError)
  deriving Repr, Inhabited

/-- The records under their numbers. -/
abbrev Records (α : Type) := Std.TreeMap RecordId α

/-- A whole machine at one moment. -/
structure Machine where
  nextId : RecordId := 0
  kernels : Records Kernel := {}
  processes : Records Process := {}
  threads : Records Thread := {}
  events : Records Event := {}
  ports : Records Port := {}
  serverPorts : Records PortEnd := {}
  clientPorts : Records PortEnd := {}
  sessions : Records Session := {}
  serverSessions : Records SessionEnd := {}
  clientSessions : Records SessionEnd := {}
  requests : Records SessionRequest := {}
  allocations : Records Allocation := {}
  sharedMemories : Records SharedMemory := {}
  transferMemories : Records TransferMemory := {}
  services : Records Service := {}
  servers : Records Server := {}
  registries : Records Registry := {}
  /-- How many handles, over all tables, name an object. -/
  handleCounts : Std.TreeMap RecordId Nat := {}
  wakeUps : WakeUps := {}
  journal : Array JournalLine := #[]
  trace : Array TraceValue := #[]
  /-- The records that something outside the machine holds on to. -/
  held : List RecordId := []
  deriving Inhabited

/-- A program over a machine that cannot fail. -/
abbrev Update := StateM Machine

/-- A program over a machine that can fail; what it did before stays done. -/
abbrev Action := ExceptT KernelError Update

/-- Runs a program and forgets whether it failed. -/
def Action.forget {α : Type} (program : Action α) : Update Unit := do
  let _ : Except KernelError α ← program.run

namespace Machine

/-! ## Looking up -/

def kernel (s : Machine) (id : RecordId) : Kernel := s.kernels.getD id default
def process (s : Machine) (id : RecordId) : Process := s.processes.getD id default
def thread (s : Machine) (id : RecordId) : Thread := s.threads.getD id default
def event (s : Machine) (id : RecordId) : Event := s.events.getD id default
def port (s : Machine) (id : RecordId) : Port := s.ports.getD id default
def session (s : Machine) (id : RecordId) : Session := s.sessions.getD id default
def request (s : Machine) (id : RecordId) : SessionRequest := s.requests.getD id default
def service (s : Machine) (id : RecordId) : Service := s.services.getD id default
def server (s : Machine) (id : RecordId) : Server := s.servers.getD id default
def registry (s : Machine) (id : RecordId) : Registry := s.registries.getD id default
def sharedMemory (s : Machine) (id : RecordId) : SharedMemory := s.sharedMemories.getD id default
def transferMemory (s : Machine) (id : RecordId) : TransferMemory := s.transferMemories.getD id default

/-- The shared part behind the server end of a session. -/
def serverSession (s : Machine) (id : RecordId) : RecordId := (s.serverSessions.getD id default).session

/-- The shared part behind the client end of a session. -/
def clientSession (s : Machine) (id : RecordId) : RecordId := (s.clientSessions.getD id default).session

/-- The shared part behind the server end of a port. -/
def serverPort (s : Machine) (id : RecordId) : RecordId := (s.serverPorts.getD id default).port

/-- The shared part behind the client end of a port. -/
def clientPort (s : Machine) (id : RecordId) : RecordId := (s.clientPorts.getD id default).port

/-- How many handles name an object. -/
def handleCount (s : Machine) (id : RecordId) : Nat := s.handleCounts.getD id 0

/-! ## Changing one record -/

def setKernel (id : RecordId) (k : Kernel) : Update Unit := modify fun s => { s with kernels := s.kernels.insert id k }
def setProcess (id : RecordId) (p : Process) : Update Unit := modify fun s => { s with processes := s.processes.insert id p }
def setThread (id : RecordId) (t : Thread) : Update Unit := modify fun s => { s with threads := s.threads.insert id t }
def setEvent (id : RecordId) (e : Event) : Update Unit := modify fun s => { s with events := s.events.insert id e }
def setPort (id : RecordId) (p : Port) : Update Unit := modify fun s => { s with ports := s.ports.insert id p }
def setSession (id : RecordId) (x : Session) : Update Unit := modify fun s => { s with sessions := s.sessions.insert id x }
def setRequest (id : RecordId) (r : SessionRequest) : Update Unit := modify fun s => { s with requests := s.requests.insert id r }
def setService (id : RecordId) (x : Service) : Update Unit := modify fun s => { s with services := s.services.insert id x }
def setServer (id : RecordId) (x : Server) : Update Unit := modify fun s => { s with servers := s.servers.insert id x }
def setRegistry (id : RecordId) (r : Registry) : Update Unit := modify fun s => { s with registries := s.registries.insert id r }

def setTransferMemory (id : RecordId) (m : TransferMemory) : Update Unit :=
  modify fun s => { s with transferMemories := s.transferMemories.insert id m }

/-- A number that no record has had. -/
def freshId : Update RecordId := modifyGet fun s => (s.nextId, { s with nextId := s.nextId + 1 })

/-! ## Telling -/

/-- Writes a line to the journal. -/
def log (level : Level) (text : String) : Update Unit := modify fun s => { s with journal := s.journal.push { level, text } }

/-- Writes what a scripted step saw. -/
def traceStep (value : TraceValue) : Update Unit := modify fun s => { s with trace := s.trace.push value }

/-- Records an event in a kernel's audit log. -/
def audit (kernel : RecordId) (event : KernelEvent) : Update Nat := do
  let (id, k) := ((← get).kernel kernel).record event
  setKernel kernel k
  return id

/-- Gives a wake-up to everybody on a wait list. -/
def wake (l : WaitList) : Update Unit := modify fun s => { s with wakeUps := s.wakeUps.giveAll l }

/-- Gives a wake-up to one parker. -/
def wakeOne (p : ParkerId) : Update Unit := modify fun s => { s with wakeUps := s.wakeUps.give p }

end Machine

end Microkernel
