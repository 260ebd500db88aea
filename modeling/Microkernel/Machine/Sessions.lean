import Microkernel.Machine.Basic

/-!
# Events, sessions and ports of a machine

The operations that wake somebody up. Each changes the state of its object first and gives the wake-ups afterwards, so that whoever
is woken finds what it waited for.
-/

namespace Microkernel.Machine

/-! ## Events -/

/-- An unsignaled event. -/
def newEvent (mode : ResetMode) : Update RecordId := do
  let id ← freshId
  setEvent id { mode }
  return id

/-- Signals an event and wakes its waiters. -/
def signalEvent (id : RecordId) : Update Unit := do
  setEvent id ((← get).event id).raise
  wake ((← get).event id).waiters

/-- Drops the flag of an event. -/
def clearEvent (id : RecordId) : Update Unit := do setEvent id ((← get).event id).clear

/-- Drops the flag of an event that must be signaled. -/
def resetEvent (id : RecordId) : Action Unit := do
  let event ← ((← get).event id).reset
  setEvent id event

/-! ## Requests -/

/-- A request whose message lies at an address of its client. -/
def newRequest (client : RecordId) (messageAddress : Nat) : Update RecordId := do
  let id ← freshId
  setRequest id { client, messageAddress }
  return id

/-- Records the outcome of a request and wakes its client; an outcome recorded before stands. -/
def completeRequest (id : RecordId) (result : Except KernelError Unit) : Update Unit := do
  let request := (← get).request id
  if request.result.isNone then
    setRequest id (request.complete result)
    wake request.waiters

/-! ## Sessions -/

/-- A session, opened through a port or not: its server end and its client end. -/
def newSession (port : Option RecordId) : Update (RecordId × RecordId) := do
  let session ← freshId
  setSession session { port }
  let server ← freshId
  let client ← freshId
  modify fun s => { s with
    serverSessions := s.serverSessions.insert server { session }
    clientSessions := s.clientSessions.insert client { session } }
  return (server, client)

/-- Queues a request on a session, from its client end. -/
def sendRequest (client request : RecordId) : Action Unit := do
  let id := (← get).clientSession client
  let session ← ((← get).session id).send request
  setSession id session
  wake session.waiters

/-- Takes the next request of a session, at its server end. -/
def receiveRequest (server : RecordId) : Update (Option RecordId) := do
  let id := (← get).serverSession server
  match ((← get).session id).receive with
  | some (request, session) =>
    setSession id session
    return some request
  | none => return none

/-- Answers the request being served at a server end. -/
def reply (server : RecordId) (result : Except KernelError Unit) : Action Unit := do
  let id := (← get).serverSession server
  match ((← get).session id).finish with
  | some (request, session) =>
    setSession id session
    completeRequest request result
  | none => throw .invalidState

/-- Closes the server side of a session: queued requests fail, its port gets the place back, and the waiters of the server end are
woken. -/
def closeServerSession (server : RecordId) : Update Unit := do
  let id := (← get).serverSession server
  match ((← get).session id).closeServer with
  | some (failed, session) =>
    setSession id session
    for request in failed do completeRequest request (.error .sessionClosed)
    if let some port := session.port then setPort port ((← get).port port).release
    wake session.waiters
  | none => return

/-- Closes the client side of a session. -/
def closeClientSession (client : RecordId) : Update Unit := do
  let id := (← get).clientSession client
  match ((← get).session id).closeClient with
  | some session =>
    setSession id session
    wake session.waiters
  | none => return

/-- Lets the server end of a session go: it is closed, and nobody is left to answer the request being served. -/
def dropServerSession (server : RecordId) : Update Unit := do
  closeServerSession server
  let id := (← get).serverSession server
  match ((← get).session id).finish with
  | some (request, session) =>
    setSession id session
    completeRequest request (.error .sessionClosed)
  | none => return

/-! ## Ports -/

/-- A port: its server end and its client end. -/
def newPort (name : String) (maxSessions : Nat) : Update (RecordId × RecordId) := do
  let port ← freshId
  setPort port { name, maxSessions }
  let server ← freshId
  let client ← freshId
  modify fun s => { s with
    serverPorts := s.serverPorts.insert server { port }
    clientPorts := s.clientPorts.insert client { port } }
  return (server, client)

/-- Opens a session through a port; answers with its client end. -/
def connectPort (clientPort : RecordId) : Action RecordId := do
  let id := (← get).clientPort clientPort
  let port ← ((← get).port id).takePlace
  let (server, client) ← newSession (some id)
  setPort id (port.enqueue server)
  wake port.waiters
  return client

/-- Takes the oldest session that waits at a port; answers with its server end. -/
def acceptSession (serverPort : RecordId) : Update (Option RecordId) := do
  let id := (← get).serverPort serverPort
  match ((← get).port id).accept with
  | some (server, port) =>
    setPort id port
    return some server
  | none => return none

/-- Closes a port and the sessions that wait at it. -/
def closePort (serverPort : RecordId) : Update Unit := do
  let id := (← get).serverPort serverPort
  match ((← get).port id).close with
  | some (waiting, port) =>
    setPort id port
    for server in waiting do closeServerSession server
    wake ((← get).port id).waiters
  | none => return

end Microkernel.Machine
