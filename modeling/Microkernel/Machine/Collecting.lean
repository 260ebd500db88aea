import Std.Data.TreeSet
import Microkernel.Machine.Settling

/-!
# Letting records go

A record lives as long as something that lives refers to it. Letting one go has an effect in three cases: pages return to their
region, a session loses its server end, and a server is stopped. Records that refer to each other in a circle stay.
-/

namespace Microkernel

mutual

/-- The records that a step of a script refers to. -/
def ScriptStep.references : ScriptStep → List RecordId
  | .outObject _ (.existing object) => [object.id]
  | .makeObject service => service.references
  | .attempt step => step.references
  | _ => []

/-- The records that the steps of a script refer to. -/
def ScriptStep.allReferences : List ScriptStep → List RecordId
  | [] => []
  | step :: rest => step.references ++ ScriptStep.allReferences rest

/-- The records that the commands of a script refer to. -/
def ScriptCommand.allReferences : List ScriptCommand → List RecordId
  | [] => []
  | .mk _ steps :: rest => ScriptStep.allReferences steps ++ ScriptCommand.allReferences rest

/-- The records that a blueprint refers to. -/
def Blueprint.references : Blueprint → List RecordId
  | .serviceManager registry _ => [registry]
  | .scripted commands => ScriptCommand.allReferences commands
  | _ => []

end

/-- The record behind something to wait on. -/
def Waitable.id : Waitable → RecordId
  | event id => id
  | process id => id
  | thread id => id
  | serverPort id => id
  | serverSession id => id
  | request id => id

/-- The records that a served session keeps. -/
def SessionEntry.references (e : SessionEntry) : List RecordId := [e.session, e.service]

/-- The records that a wait keeps. -/
def Wait.references (w : Wait) : List RecordId :=
  w.objects.map Waitable.id ++
    match w.purpose with
    | .reply request _ => [request]
    | .serve window => window.flatMap SessionEntry.references
    | _ => []

/-- The records that a running thread keeps, itself included. -/
def Thread.references (id : RecordId) (t : Thread) : List RecordId :=
  if t.isRunning then
    id :: t.process ::
      match t.activity with
      | .waiting wait => wait.references
      | .held (.generateHandle object) => [object.id]
      | .held (.bindSession session) => [session]
      | _ => []
  else []

/-- The records that a process keeps. -/
def Process.references (p : Process) : List RecordId :=
  p.handles.objects.map KernelObject.id ++ p.threads ++ p.space.mappings.flatMap Mapping.backing

/-- The records that a server keeps. -/
def Server.references (x : Server) : List RecordId :=
  x.port :: x.process :: (x.sessions.flatMap SessionEntry.references ++ x.blueprint.references)

/-- The records that a service instance keeps, those of its script included. -/
def Service.allReferences (x : Service) : List RecordId :=
  x.references ++
    match x with
    | .scripted commands _ _ => ScriptCommand.allReferences commands
    | _ => []

namespace Machine

/-- Every reference from something that lives. -/
def references (s : Machine) : List RecordId :=
  s.held
  ++ s.kernels.values.flatMap (fun k => k.processes.values ++ k.namedPorts.values)
  ++ s.processes.values.flatMap Process.references
  ++ s.threads.toList.flatMap (fun (id, t) => t.references id)
  ++ s.sessions.values.flatMap (fun x => x.pending ++ x.current.toList ++ x.port.toList)
  ++ s.serverSessions.values.map SessionEnd.session ++ s.clientSessions.values.map SessionEnd.session
  ++ s.ports.values.flatMap Port.incoming
  ++ s.serverPorts.values.map PortEnd.port ++ s.clientPorts.values.map PortEnd.port
  ++ s.requests.values.map SessionRequest.client
  ++ s.sharedMemories.values.map SharedMemory.allocation
  ++ s.transferMemories.values.flatMap TransferMemory.backing
  ++ s.services.values.flatMap Service.allReferences
  ++ s.servers.values.flatMap Server.references
  ++ s.registries.values.flatMap (fun r => r.ready :: r.services.values)

/-- The records of a table that are not live. -/
def dead {α : Type} (live : Std.TreeSet RecordId) (records : Records α) : List RecordId :=
  records.keys.filter fun id => !live.contains id

/-- A table without the records that were dead in an earlier one. -/
def kept {α : Type} (live : Std.TreeSet RecordId) (old new : Records α) : Records α :=
  new.filter fun id _ => live.contains id || !old.contains id

/-- The machine `t` without the records that were dead in an earlier machine `s`. -/
def dropDead (live : Std.TreeSet RecordId) (s t : Machine) : Machine := { t with
  servers := kept live s.servers t.servers
  serverSessions := kept live s.serverSessions t.serverSessions
  clientSessions := kept live s.clientSessions t.clientSessions
  allocations := kept live s.allocations t.allocations
  processes := kept live s.processes t.processes
  threads := kept live s.threads t.threads
  events := kept live s.events t.events
  ports := kept live s.ports t.ports
  serverPorts := kept live s.serverPorts t.serverPorts
  clientPorts := kept live s.clientPorts t.clientPorts
  sessions := kept live s.sessions t.sessions
  requests := kept live s.requests t.requests
  sharedMemories := kept live s.sharedMemories t.sharedMemories
  transferMemories := kept live s.transferMemories t.transferMemories
  services := kept live s.services t.services }

/-- Whether some record is dead. -/
def hasDead (live : Std.TreeSet RecordId) (s : Machine) : Bool :=
  let some {α : Type} (records : Records α) : Bool := !(dead live records).isEmpty
  some s.servers || some s.serverSessions || some s.clientSessions || some s.allocations || some s.processes || some s.threads
    || some s.events || some s.ports || some s.serverPorts || some s.clientPorts || some s.sessions || some s.requests
    || some s.sharedMemories || some s.transferMemories || some s.services

/-- Lets go of every record that nothing refers to; answers whether there was any. -/
def sweep : Update Bool := do
  let s ← get
  let live := Std.TreeSet.ofList s.references
  for id in dead live s.servers do stopServer id
  for id in dead live s.serverSessions do dropServerSession id
  for id in dead live s.allocations do freeAllocation id
  modify (dropDead live s)
  return hasDead live s

/-- Settles and lets records go, in turns, at most a given number of times. -/
def quiesceFor : Nat → Update Unit
  | 0 => return
  | fuel + 1 => do
    settle
    if ← sweep then quiesceFor fuel

/-- Lets threads run and records go until nothing is left to do; every turn but the last lets some record go. -/
def quiesce : Update Unit := do quiesceFor ((← get).nextId + 1)

end Machine

end Microkernel
