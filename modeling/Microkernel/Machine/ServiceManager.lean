import Microkernel.Machine.Registries
import Microkernel.Machine.Servers
import Microkernel.Service.Blueprint

/-!
# Starting services

The service manager answers on a named port and looks services up in a registry. A service of a table is published in the registry
before its server starts; a start that fails takes the name back.
-/

namespace Microkernel

/-- The named port of the service manager. -/
def managerPortName : String := "sm:"

/-- The session limit of the service manager. -/
def managerMaxSessions : Nat := 50

namespace Machine

/-- Registers the service manager's port, starts its server and tells whoever waits for the registry that it is ready. -/
def startManager (kernel registry : RecordId) (ignoreMissing : Bool) : Action RecordId := do
  let port ← registerNamedPort kernel managerPortName managerMaxSessions
  let server ←
    try startServer kernel managerPortName port (.serviceManager registry ignoreMissing) {}
    catch e =>
      unregisterNamedPort kernel managerPortName
      throw e
  signalEvent ((← get).registry registry).ready
  return server

/-- Publishes a service and starts its server. -/
def startEntry (kernel registry : RecordId) (entry : ServiceEntry) : Update (Except ServiceError RecordId) := do
  match ← registerService registry entry.name entry.maxSessions with
  | .error e => return .error (.registry e)
  | .ok port =>
    match ← (startServer kernel entry.name.text port entry.blueprint {}).run with
    | .ok server => return .ok server
    | .error e =>
      let _ ← unregisterService registry entry.name
      return .error (.kernel e)

/-- Waits until a registry is ready, at most as long as `timeout` says. -/
def waitReady (registry : RecordId) (timeout : Timeout) : Action Unit := do
  let _ ← waitAlone (← freshId) false [.event ((← get).registry registry).ready] timeout

end Machine

end Microkernel
