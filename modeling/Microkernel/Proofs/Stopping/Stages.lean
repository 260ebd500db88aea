import Microkernel.Machine.Servers
import Microkernel.Proofs.Teardown.Stages

/-!
# Stopping a server step by step

A server's thread accepts sessions and answers requests; a call to stop the server closes the port, closes the sessions that are
listed, and ends the host process. Each takes its steps one at a time, and every look at a session, a port or the list is a step of its
own; clients and handlers take theirs in between (`Stopping`). Steps in a row are the programs (`closeServerSession_of_steps`,
`closePort_of_steps`, `acceptAll_of_steps`, `serveSession_of_steps`, `stopServer_of_steps`).
-/

namespace Microkernel.Machine

/-! ## Closing in pieces -/

/-- What is still to be done by somebody who closes server ends. -/
inductive Chore
  /-- A server end is to be closed. -/
  | shut (server : RecordId)
  | fail (request : RecordId)
  /-- A port is to get a place back. -/
  | free (port : RecordId)
  | rouse (waiters : WaitList)
  /-- The waiters of a port are to be woken. -/
  | rousePort (port : RecordId)
  deriving DecidableEq

/-- Does one thing; answers with what has to be done next because of it. -/
def Chore.run : Chore → Update (List Chore)
  | shut server => do
    let id := (← get).serverSession server
    match ((← get).session id).closeServer with
    | some (failed, session) =>
      setSession id session
      return failed.map fail ++ session.port.toList.map free ++ [rouse session.waiters]
    | none => return []
  | fail request => do
    completeRequest request (.error .sessionClosed)
    return []
  | free port => do
    setPort port ((← get).port port).release
    return []
  | rouse waiters => do
    wake waiters
    return []
  | rousePort port => do
    wake ((← get).port port).waiters
    return []

/-- Closes a port, but none of the sessions that wait at it. -/
def shutPort (serverPort : RecordId) : Update (List Chore) := do
  let id := (← get).serverPort serverPort
  match ((← get).port id).close with
  | some (waiting, port) =>
    setPort id port
    return waiting.map .shut ++ [.rousePort id]
  | none => return []

/-- Takes the list of sessions away from a server. -/
def takeSessions (server : RecordId) : Update (List Chore) := do
  let x := (← get).server server
  setServer server { x with sessions := [] }
  return x.sessions.map (.shut ·.session)

/-! ## Stages -/

/-- How far a call to stop a server is. -/
inductive StopStage
  /-- Nobody has called. -/
  | idle
  /-- The call has claimed the server for itself; later calls return at once. -/
  | called
  /-- The port is closed. -/
  | emptying (chores : List Chore)
  /-- The sessions were taken. -/
  | closing (chores : List Chore)
  /-- In the call that terminates the host process. -/
  | terminating (stage : CallStage)
  | returned
  deriving DecidableEq

/-- How far the thread of a server is. -/
inductive LoopStage
  | entering
  /-- At the top of its loop. -/
  | looping
  | waiting (window : List SessionEntry)
  | accepting
  /-- A session was accepted that has no service instance yet. -/
  | building (session : RecordId)
  /-- It has one, and is not listed yet. -/
  | listing (entry : SessionEntry)
  /-- A session was found signaled. -/
  | serving (entry : SessionEntry)
  /-- There was no request. -/
  | peeking (entry : SessionEntry)
  | handling (entry : SessionEntry) (request : RecordId)
  /-- The response is written, or could not be. -/
  | replying (entry : SessionEntry) (request : RecordId) (outcome : Dispatched) (written : Except KernelError Unit)
  | adding (entry : SessionEntry) (outcome : Dispatched)
  | removing (entry : SessionEntry)
  | dropping (chores : List Chore)
  /-- The loop is left. -/
  | ending
  /-- The sessions were taken. -/
  | closing (chores : List Chore)
  | leaving (stage : ThreadStage)

section

variable (id : RecordId) (s : Machine)

def StopStage.advance : StopStage → StopStage × Machine
  | idle => (idle, s)
  | called =>
    let (chores, t) := shutPort (s.server id).port s
    (emptying chores, t)
  | emptying (chore :: rest) =>
    let (more, t) := chore.run s
    (emptying (more ++ rest), t)
  | emptying [] =>
    let (chores, t) := takeSessions id s
    (closing chores, t)
  | closing (chore :: rest) =>
    let (more, t) := chore.run s
    (closing (more ++ rest), t)
  | closing [] => (terminating .called, s)
  | terminating (.finishing .finished) => (returned, (log .info s!"{(s.server id).name} successfully stopped." s).2)
  | terminating stage =>
    let (stage, t) := stage.advance (s.server id).process s none
    (terminating stage, t)
  | returned => (returned, s)

/-- The next step of a server's thread. What it finds signaled, and what the handler of a request does, is not up to it. -/
def LoopStage.advance (thread : RecordId) : LoopStage → LoopStage × Machine
  | entering => (looping, (moveThread thread .run s).2)
  | looping =>
    if (s.thread thread).terminationRequested then (ending, s)
    else if (s.process (s.server id).process).paused then (looping, s)
    else
      let x := s.server id
      let (window, _, windowStart) := Server.window x.sessions x.windowStart
      (waiting window, (moveThread thread .beginWait (setServer id { x with windowStart } s).2).2)
  | waiting window =>
    if (s.thread thread).terminationRequested then (ending, (moveThread thread .endWait s).2) else (waiting window, s)
  | accepting =>
    match acceptSession (s.server id).port s with
    | (some session, t) => (building session, t)
    | (none, t) => (looping, t)
  | building session =>
    let (service, t) := Service.build (s.server id).blueprint s
    (listing { session, service }, t)
  | listing entry => (accepting, (addSessions id [entry] s).2)
  | serving entry =>
    match receiveRequest entry.session s with
    | (some request, t) => (handling entry request, t)
    | (none, t) => (peeking entry, t)
  | peeking entry =>
    if (s.session (s.serverSession entry.session)).clientOpen then
      (looping, (log .warn s!"{(s.server id).name}: session signaled without a request" s).2)
    else (removing entry, s)
  | handling entry request => (handling entry request, s)
  | replying entry _ outcome written => (adding entry outcome, ((reply entry.session written).run s).2)
  | adding entry outcome => (if outcome.close then removing entry else looping, (addSessions id outcome.newSessions s).2)
  | removing entry =>
    let x := s.server id
    (dropping [.shut entry.session], (setServer id { x with sessions := x.sessions.filter (·.session ≠ entry.session) } s).2)
  | dropping (chore :: rest) =>
    let (more, t) := chore.run s
    (dropping (more ++ rest), t)
  | dropping [] => (looping, s)
  | ending =>
    let (chores, t) := takeSessions id s
    (closing chores, t)
  | closing (chore :: rest) =>
    let (more, t) := chore.run s
    (closing (more ++ rest), t)
  | closing [] => (leaving .ended, (endBody thread .returned s).2)
  | leaving stage =>
    let (stage, t) := stage.advance (s.server id).process s thread
    (leaving stage, t)

end

/-- The request that the thread has received and not answered, behind the server end that it came to. -/
def LoopStage.serving? : LoopStage → Option (RecordId × RecordId)
  | handling entry request | replying entry request _ _ => some (entry.session, request)
  | _ => none

/-! ## What others do -/

/-- The sessions, the ports, the requests and the servers are the same. -/
structure SameDesk (s t : Machine) : Prop where
  nextId : s.nextId ≤ t.nextId
  sessions : t.sessions = s.sessions
  serverSessions : t.serverSessions = s.serverSessions
  clientSessions : t.clientSessions = s.clientSessions
  ports : t.ports = s.ports
  serverPorts : t.serverPorts = s.serverPorts
  clientPorts : t.clientPorts = s.clientPorts
  requests : t.requests = s.requests
  servers : t.servers = s.servers

/-- The host process of a server and its threads are as far as they were, and none of these was asked to exit. -/
structure SameHost (process : RecordId) (s t : Machine) : Prop where
  state : (t.process process).state = (s.process process).state
  threads : (t.process process).threads = (s.process process).threads
  kernel : (t.process process).kernel = (s.process process).kernel
  pid : (t.process process).pid = (s.process process).pid
  threadState : ∀ th ∈ (s.process process).threads, (t.thread th).state = (s.thread th).state
  unasked : ∀ th ∈ (s.process process).threads, (t.thread th).terminationRequested = (s.thread th).terminationRequested

/-- What somebody does that has nothing to do with sessions, ports, requests and servers. -/
structure Errand (process : RecordId) where
  run : Machine → Machine
  desk : ∀ s, SameDesk s (run s)
  host : ∀ s, SameHost process s (run s)

/-- What clients, handlers and others do while a server runs. -/
inductive Act (process : RecordId)
  | connect (clientPort : RecordId)
  /-- Opens a session that does not go through a port. -/
  | openSession
  /-- Sends a new request, whose message lies at an address of a process. -/
  | send (client : RecordId) (sender : RecordId) (address : Nat)
  | closeClient (client : RecordId)
  | closeServer (server : RecordId)
  | closePort (serverPort : RecordId)
  /-- The client gives up on a request. -/
  | giveUp (request : RecordId)
  | errand (e : Errand process)

namespace Act

variable {process : RecordId}

def run (s : Machine) : Act process → Machine
  | connect clientPort => ((connectPort clientPort).run s).2
  | openSession => (newSession none s).2
  | send client sender address =>
    let (request, t) := newRequest sender address s
    ((sendRequest client request).run t).2
  | closeClient client => (closeClientSession client s).2
  | closeServer server => (closeServerSession server s).2
  | closePort serverPort => (Machine.closePort serverPort s).2
  | giveUp request => (completeRequest request (.error .terminationRequested) s).2
  | errand e => e.run s

/-- The request that an act gives up on. -/
def given? : Act process → Option RecordId
  | giveUp request => some request
  | _ => none

end Act

/-! ## Interleavings -/

/-- A server end and its session have been made. -/
def knows (s : Machine) (server : RecordId) : Bool := server < s.nextId && s.serverSession server < s.nextId

/-- A server that may be stopped: how far its thread and the call that stops it are. -/
structure Stopping (id process thread : RecordId) where
  machine : Machine
  loop : LoopStage
  stop : StopStage := .idle
  /-- The server ends of sessions that were added after a request. -/
  added : List RecordId := []
  /-- The requests that were answered, each with its answer. -/
  answers : List (RecordId × Except KernelError Unit) := []
  /-- The requests that clients gave up on. -/
  givenUp : List RecordId := []

namespace Stopping

variable {id process thread : RecordId}

/-- What happens next. -/
inductive Step (process : RecordId)
  /-- Somebody calls to stop the server. -/
  | stop
  /-- The call that stops the server takes a step. -/
  | advance
  /-- The thread of the server takes a step. -/
  | turn
  /-- The thread's wait ends with one of the objects it waits for: the port, which comes first, or a session. -/
  | wake (index : Nat)
  /-- The thread's wait was bounded, and its time is over. -/
  | expire
  /-- The handler of the request is over. -/
  | dispatched (outcome : Dispatched) (written : Except KernelError Unit)
  | act (a : Act process)

/-- The request that the thread has received and not answered. -/
def request? (c : Stopping id process thread) : Option RecordId := c.loop.serving?.map (·.2)

def turn (c : Stopping id process thread) : Stopping id process thread :=
  let (loop, machine) := c.loop.advance id c.machine thread
  match c.loop with
  | .replying _ request _ written => { c with machine, loop, answers := c.answers ++ [(request, written)] }
  | .adding _ outcome => { c with machine, loop, added := c.added ++ outcome.newSessions.map (·.session) }
  | _ => { c with machine, loop }

def step (c : Stopping id process thread) : Step process → Stopping id process thread
  | .stop =>
    let x := c.machine.server id
    if x.stopped then c else { c with machine := (setServer id { x with stopped := true } c.machine).2, stop := .called }
  | .advance =>
    let (stop, machine) := c.stop.advance id c.machine
    { c with machine, stop }
  | .turn => c.turn
  | .wake index =>
    match c.loop with
    | .waiting window =>
      let machine := (moveThread thread .endWait c.machine).2
      match index with
      | 0 => { c with machine, loop := .accepting }
      | index + 1 =>
        match window[index]? with
        | some entry => { c with machine, loop := .serving entry }
        | none => c
    | _ => c
  | .expire =>
    match c.loop with
    | .waiting _ => { c with machine := (moveThread thread .endWait c.machine).2, loop := .looping }
    | _ => c
  | .dispatched outcome written =>
    match c.loop with
    | .handling entry request =>
      if outcome.newSessions.all fun entry => knows c.machine entry.session then
        { c with loop := .replying entry request outcome written }
      else c
    | _ => c
  | .act a => { c with machine := a.run c.machine, givenUp := c.givenUp ++ a.given?.toList }

/-- A server whose thread has been started. -/
def start (id process thread : RecordId) (s : Machine) : Stopping id process thread := { machine := s, loop := .entering }

/-- The server runs, and is stopped or not, by steps in an order. -/
def after (id process thread : RecordId) (s : Machine) (steps : List (Step process)) : Stopping id process thread :=
  steps.foldl step (start id process thread s)

end Stopping

end Microkernel.Machine
