import Microkernel.Machine.Processes
import Microkernel.Service.Dispatch

/-!
# Servers of a machine

Starting and stopping servers, and one pass of the loop that a server's thread runs: accept what waits at the port, or serve one
request, or let a session go whose client is gone.
-/

namespace Microkernel.Machine

/-- The code address of service hosts. -/
def serviceCodeAddress : UInt64 := 0x08000000

/-- The description of every service host. -/
def serviceHost : ProcessCreation :=
  { name := "Service", version := 1, programId := 0, codeAddress := serviceCodeAddress, codePages := 1, flags := .service }

/-- Starts a server for a port in a process of its own. -/
def startServer (kernel : RecordId) (name : String) (port : RecordId) (blueprint : Blueprint) (options : ServerOptions) :
    Action RecordId := do
  let id ← freshId
  let words ← match Capability.serviceCapabilities? ((← get).kernel kernel).config.cpuCoreCount with
    | some words => pure words
    | none => throw .overflow
  let process ← startProcess kernel serviceHost words options.priority.toNat (.server id)
  setServer id { kernel, name, port, process, blueprint, options }
  log .info s!"{name}: server started (pid {((← get).process process).pidText})"
  return id

/-- Stops a server: no session is accepted any longer, every session is closed, and the host process is terminated. -/
def stopServer (id : RecordId) : Update Unit := do
  let x := (← get).server id
  if !x.stopped then
    setServer id { x with stopped := true }
    closePort x.port
    closeSessions id
    terminateProcess x.process none
    log .info s!"{x.name} successfully stopped."

/-- Stops serving a session and closes it. -/
def removeSession (server : RecordId) (entry : SessionEntry) : Update Unit := do
  let x := (← get).server server
  setServer server { x with sessions := x.sessions.filter (·.session ≠ entry.session) }
  closeServerSession entry.session

/-- Starts serving sessions. -/
def addSessions (server : RecordId) (entries : List SessionEntry) : Update Unit := do
  let x := (← get).server server
  setServer server { x with sessions := x.sessions ++ entries }

/-- Accepts every session that waits at the port; each gets a service instance of its own. -/
def acceptAll (server : RecordId) : Update Unit := do
  let x := (← get).server server
  for _ in ((← get).port ((← get).serverPort x.port)).incoming do
    if let some session ← acceptSession x.port then
      let service ← Service.build x.blueprint
      addSessions server [{ session, service }]

/-- Serves a session that was found signaled. -/
def serveSession (server : RecordId) (entry : SessionEntry) : Update Unit := do
  let x := (← get).server server
  match ← receiveRequest entry.session with
  | some request =>
    let dispatcher : Dispatcher := { kernel := x.kernel, server := x.process, pointerBufferSize := x.options.pointerBufferSize }
    let outcome ← dispatcher.handle entry request
    addSessions server outcome.newSessions
    if outcome.close then removeSession server entry
  | none =>
    let s ← get
    if !(s.session (s.serverSession entry.session)).clientOpen then removeSession server entry
    else log .warn s!"{x.name}: session signaled without a request"

/-- Acts on the object that a server's wait found signaled: the port, which comes first, or a session of the window. -/
def serveIndex (server : RecordId) (window : List SessionEntry) : Nat → Update Unit
  | 0 => acceptAll server
  | index + 1 =>
    match window[index]? with
    | some entry => serveSession server entry
    | none => return

/-- One pass of a server's loop, up to its wait and, if the wait ends at once, through it. -/
def servePass (thread server : RecordId) : Update Unit := do
  let s ← get
  let t := s.thread thread
  if t.terminationRequested then stopThread thread
  else if !(s.process t.process).paused then
    let x := s.server server
    let (window, isTimed, windowStart) := Server.window x.sessions x.windowStart
    setServer server { x with windowStart }
    let objects := .serverPort x.port :: window.map fun entry => Waitable.serverSession entry.session
    moveThread thread .beginWait
    match ← (beginWait thread false objects .never).run with
    | .ok none => setActivity thread (.waiting { objects, isTimed, purpose := .serve window })
    | .ok (some index) =>
      moveThread thread .endWait
      serveIndex server window index
    | .error e =>
      moveThread thread .endWait
      closeSessions server
      exitThread thread (.failed e)

/-- Whether some session of a server, or its port, is signaled. -/
def hasWork (s : Machine) (server : RecordId) : Bool :=
  let x := s.server server
  s.isSignaled (.serverPort x.port) || x.sessions.any fun entry => s.isSignaled (.serverSession entry.session)

end Microkernel.Machine
