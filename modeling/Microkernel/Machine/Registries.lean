import Microkernel.Service.Error
import Microkernel.Machine.Handles

/-!
# Service registries of a machine
-/

namespace Microkernel.Machine

/-- A registry without services. -/
def newRegistry (kernel : RecordId) : Update RecordId := do
  let ready ← newEvent .manual
  let id ← freshId
  setRegistry id { kernel, ready }
  return id

/-- Gives a free name to the client end of a port. -/
def registerPort (registry : RecordId) (name : ServiceName) (clientPort : RecordId) : Update (Except RegistryError Unit) := do
  match ((← get).registry registry).bind name clientPort with
  | .ok r =>
    setRegistry registry r
    log .info s!"Registered service {name.text}"
    let _ ← audit r.kernel (.serviceRegistered name.text)
    return .ok ()
  | .error e => return .error e

/-- Makes a port under a free name; answers with its server end. -/
def registerService (registry : RecordId) (name : ServiceName) (maxSessions : Nat) : Update (Except RegistryError RecordId) := do
  let (server, client) ← newPort name.text maxSessions
  return (← registerPort registry name client).map fun _ => server

/-- Frees a name. -/
def unregisterService (registry : RecordId) (name : ServiceName) : Update (Except RegistryError Unit) := do
  match ((← get).registry registry).unbind name with
  | .ok r =>
    setRegistry registry r
    log .info s!"Unregistered service {name.text}"
    let _ ← audit r.kernel (.serviceUnregistered name.text)
    return .ok ()
  | .error e => return .error e

/-- Opens a session to the service with a name; answers with its client end. -/
def connectService (registry : RecordId) (name : ServiceName) : Update (Except ServiceError RecordId) := do
  match ((← get).registry registry).get? name with
  | some port => return (← (connectPort port).run).mapError .kernel
  | none => return .error (.registry (.notRegistered name.text))

/-- Forgets every name. -/
def clearRegistry (registry : RecordId) : Update Unit := do
  setRegistry registry { (← get).registry registry with services := {} }

end Microkernel.Machine
