import Microkernel.Machine.ServiceManager
import Microkernel.Service.Error

/-!
# Server sets and what goes wrong with them
-/

namespace Microkernel

/-! ## Supervisor errors -/

/-- Why a supervisor refuses or gives up. -/
inductive SupervisorError
  | kernel (e : KernelError)
  | service (e : ServiceError)
  | alreadyInitialized
  | appletAttached
  /-- The configuration cannot be read. -/
  | config
  deriving DecidableEq, Repr

namespace SupervisorError

def message : SupervisorError → String
  | kernel e => "kernel: " ++ e.message
  | service e => "service: " ++ e.message
  | alreadyInitialized => "services are already initialized"
  | appletAttached => "an applet context is already attached"
  | config => "invalid configuration"

/-- The name under which reports list the error. -/
def name : SupervisorError → String
  | kernel e => "Kernel." ++ e.name
  | service e => "Service." ++ e.name
  | alreadyInitialized => "AlreadyInitialized"
  | appletAttached => "AppletAttached"
  | config => "Config"

/-- Whether the session cannot go on. -/
def isFatal : SupervisorError → Bool
  | kernel e => e.isFatal
  | service (.kernel e) => e.isFatal
  | _ => false

end SupervisorError

/-!
## Server sets

The services of one emulation context: the service manager starts first and stops last, the others start in the order of the table and
stop newest first.
-/

open Machine

/-- A kernel, its registry and the servers that run on it. -/
structure ServerSet where
  kernel : RecordId
  registry : RecordId
  /-- What starts at the next initialization. -/
  table : ServiceTable
  manager : Option RecordId := none
  /-- The named servers in start order. -/
  servers : List RecordId := []
  deriving Inhabited

namespace ServerSet

/-- A set over a kernel with a registry of its own and the default services. -/
def new (kernel : RecordId) : Update ServerSet := do
  return { kernel, registry := ← newRegistry kernel, table := .standard }

def isInitialized (s : ServerSet) : Bool := s.manager.isSome

/-- The running servers in the order in which they must stop. -/
def stopOrder (s : ServerSet) : List RecordId := s.servers.reverse ++ s.manager.toList

/-- The named server with a name. -/
def server? (s : ServerSet) (m : Machine) (name : String) : Option RecordId :=
  s.servers.find? fun id => (m.server id).name = name

/-- The sessions of all servers. -/
def sessionCount (s : ServerSet) (m : Machine) : Nat :=
  total (fun id => (m.server id).sessions.length) (s.manager.toList ++ s.servers)

/-- How long an initialization waits for the service manager, in milliseconds. -/
def managerTimeout : Nat := 5000

/-- Starts services one after the other up to the first that fails; those started before stay up. -/
def startEntries (s : ServerSet) : List ServiceEntry → Update (ServerSet × Except SupervisorError Unit)
  | [] => return (s, .ok ())
  | entry :: rest => do
    match ← startEntry s.kernel s.registry entry with
    | .ok server => startEntries { s with servers := s.servers ++ [server] } rest
    | .error e => return (s, .error (.service e))

/-- Starts the service manager, waits until it is ready, and starts the services of the table. -/
def start (s : ServerSet) (ignoreMissing : Bool) : Update (ServerSet × Except SupervisorError Unit) := do
  if s.isInitialized then return (s, .error .alreadyInitialized)
  match ← (startManager s.kernel s.registry ignoreMissing).run with
  | .error e => return (s, .error (.service (.kernel e)))
  | .ok manager =>
    let s := { s with manager := some manager }
    match ← (waitReady s.registry (.after (managerTimeout * 1000000))).run with
    | .error e => return (s, .error (.kernel e))
    | .ok () =>
      let (s, outcome) ← s.startEntries s.table.entries
      if outcome.isOk then log .info s!"{s.servers.length} services started"
      return (s, outcome)

/-- Stops all servers, then forgets every registration and the table. -/
def stop (s : ServerSet) : Update ServerSet := do
  for server in s.stopOrder do stopServer server
  if s.isInitialized then
    if let .error e ← (unregisterNamedPort s.kernel managerPortName).run then
      log .warn s!"Failed to unregister {managerPortName}: {e.message}"
  clearRegistry s.registry
  return { s with table := {}, manager := none, servers := [] }

/-- The records that a set keeps alive. -/
def references (s : ServerSet) : List RecordId := s.manager.toList ++ s.servers

end ServerSet

end Microkernel
